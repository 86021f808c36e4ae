import ClauseWeave.Text.Cut
import ClauseWeave.Text.Word

namespace ClauseWeave.Verbosity

inductive Level where
  | off | error | warn | info | debug | trace
  deriving DecidableEq, Repr

def Level.rank : Level → Nat
  | off => 0
  | error => 1
  | warn => 2
  | info => 3
  | debug => 4
  | trace => 5

def Level.all : List (String × Level) :=
  [("off", .off), ("error", .error), ("warn", .warn), ("info", .info), ("debug", .debug),
    ("trace", .trace)]

def Level.ofText? (s : List Char) : Option Level :=
  let small := String.ofList (s.map Char.toLower)
  match Level.all.lookup small with
  | some l => some l
  | none =>
    let digits :=
      match s with
      | '+' :: rest => rest
      | s => s
    if digits.isEmpty || !digits.all Char.isDigit then none
    else
      let n := digits.foldl (fun n c => 10 * n + (c.toNat - 48)) 0
      (Level.all.find? fun e => e.2.rank = n).map (·.2)

/-- A level for the parts whose name starts with `target`. Directives about spans concern nothing
that is reported here. -/
inductive Directive where
  | level (target : Option (List Char)) (l : Level)
  | span

def isTargetChar (c : Char) : Bool := Text.isWord c || c == ':' || c == '-'

def Directive.parse? (s : List Char) : Option Directive :=
  let s := Text.trim s
  match Level.ofText? s with
  | some l => some (.level none l)
  | none =>
    let target := s.takeWhile isTargetChar
    match s.dropWhile isTargetChar with
    | [] => if target.isEmpty then none else some (.level (some target) .trace)
    | '=' :: word =>
      if target.isEmpty then none
      else if word.isEmpty then some (.level (some target) .trace)
      else (Level.ofText? word).map fun l => .level (some target) l
    | '[' :: rest => if rest.contains ']' then some .span else none
    | _ => none

def directives (filter : String) : List Directive :=
  ((filter.toList.splitOn ',').filter (!·.isEmpty)).filterMap Directive.parse?

def Directive.fit? (part : List Char) : Directive → Option (Nat × Level)
  | .level none l => some (0, l)
  | .level (some target) l =>
    if (Text.after? target part).isSome then some (target.length + 1, l) else none
  | .span => none

/-- The level for a part: the closest directive's, the later of two equal ones. Where a filter says
nothing at all, errors are shown. -/
def levelFor (filter : String) (part : String) : Level :=
  match directives filter with
  | [] => .error
  | ds =>
    let fits := ds.filterMap fun d => d.fit? part.toList
    let best := fits.foldl
      (fun (best : Option (Nat × Level)) e =>
        match best with
        | some b => if b.1 ≤ e.1 then some e else some b
        | none => some e)
      none
    match best with
    | some (_, l) => l
    | none => .off

def shows (filter part : String) (l : Level) : Bool := l.rank ≤ (levelFor filter part).rank

end ClauseWeave.Verbosity
