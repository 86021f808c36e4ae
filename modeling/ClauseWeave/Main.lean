import ClauseWeave.Command.Run
import ClauseWeave.Command.Usage

namespace ClauseWeave.Command

/-- The number of a fault and its text; negative numbers arrive wrapped around. -/
def faultText (code : UInt32) (details : String) : String :=
  let n := if code.toNat < Nat.pow 2 31 then code.toNat else UInt32.size - code.toNat
  details.capitalize ++ " (os error " ++ toString n ++ ")"

def readReason : IO.Error → String
  | .noFileOrDirectory _ code details => faultText code details
  | .inappropriateType _ code details => faultText code details
  | .permissionDenied _ code details => faultText code details
  | e => toString e

def readText (path : String) : IO (Except String String) := do
  match ← (IO.FS.readBinFile path).toBaseIO with
  | .error e => return .error (readReason e)
  | .ok bytes =>
    match String.fromUTF8? bytes with
    | some text => return .ok text
    | none => return .error "stream did not contain valid UTF-8"

def readEnvironment : IO (List (String × String)) := do
  match ← readText "/proc/self/environ" with
  | .error _ => return []
  | .ok text =>
    return (text.splitOn "\x00").filterMap fun entry =>
      (Text.cutAt '=' entry.toList).map fun (name, value) =>
        (String.ofList name, String.ofList value)

def readDefaults : IO (Except String String) := do
  let depth := ((← IO.currentDir).toString.splitOn "/").length
  for up in List.range depth do
    match ← readText (String.join (List.replicate up "../") ++ ".env") with
    | .ok text => return .ok text
    | .error _ => continue
  return .error ""

def readFiles (env : List (String × String)) (words : List String) :
    IO (List (String × Except String String)) := do
  let defaults := [(".env", ← readDefaults)]
  let around : Surroundings := ⟨env, fun path => (defaults.lookup path).getD (.error "")⟩
  match parse (environment around) words with
  | .error _ => return defaults
  | .ok i => return defaults ++ [(i.doc, ← readText i.doc)]

def report (outcome : Outcome) : IO UInt32 := do
  match outcome with
  | .printed text warnings =>
    for w in warnings do IO.eprintln ("WARN " ++ w.message)
    IO.print text
    return 0
  | .failed message warnings =>
    for w in warnings do IO.eprintln ("WARN " ++ w.message)
    IO.eprintln ("\nError: " ++ message ++ "\n")
    return 1
  | .misused fault =>
    if fault.isAnswer then
      IO.println fault.message
      return 0
    else
      IO.eprintln ("error: " ++ fault.message)
      return 2

end ClauseWeave.Command

def main (words : List String) : IO UInt32 := do
  let env ← ClauseWeave.Command.readEnvironment
  let files ← ClauseWeave.Command.readFiles env words
  ClauseWeave.Command.report
    (ClauseWeave.Command.run ⟨env, fun path => (files.lookup path).getD (.error "")⟩ words)
