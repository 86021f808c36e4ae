import ClauseWeave.Text.Cut

namespace ClauseWeave.Name

def greatestCounter : Nat := UInt64.size - 1

def decimal? (s : List Char) : Option Nat :=
  if s.isEmpty || !s.all Char.isDigit then none
  else some (s.foldl (fun n c => 10 * n + (c.toNat - 48)) 0)

/-- `age_12` is `age` with the counter 12. A name without a counter, or with nothing in front of
it, is left whole. -/
def splitCounter (name : String) : String × Option Nat :=
  match Text.cutAtLast '_' name.toList with
  | some (base, suffix) =>
    match decimal? suffix with
    | some n =>
      if base.isEmpty || greatestCounter < n then (name, none) else (String.ofList base, some n)
    | none => (name, none)
  | none => (name, none)

def numbered (base : String) (n : Nat) : String := base ++ "_" ++ toString n

/-- The names tried for a candidate: itself, then its base with ever greater counters. Past the
greatest counter of a base the whole candidate is the base, and counting starts again at one. -/
def attempt (candidate : String) : Nat → String
  | 0 => candidate
  | k + 1 =>
    match splitCounter candidate with
    | (base, some n) =>
      if n + k < greatestCounter then numbered base (n + k + 1)
      else numbered candidate (n + k + 1 - greatestCounter)
    | (_, none) => numbered candidate (k + 1)

/-- The first attempt that is not in use. Among one more attempt than there are names in use
there is a free one. -/
def fresh (candidate : String) (used : List String) : String :=
  match (List.range (used.length + 1)).find? fun i => attempt candidate i ∉ used with
  | some i => attempt candidate i
  | none => candidate

def ofPath (path : String) : String :=
  String.ofList (path.toList.map fun c => if c = '.' then '_' else c)

end ClauseWeave.Name
