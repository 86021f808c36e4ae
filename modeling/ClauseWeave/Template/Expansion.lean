import ClauseWeave.Failure
import ClauseWeave.Template.Placeholder
import ClauseWeave.Template.Token

namespace ClauseWeave

def defaultPasses : Nat := 16

def Placeholder.resolve (tokens : Tokens) (p : Placeholder) : Except Failure String :=
  let name := String.ofList p.name
  match tokens.get? name with
  | none => .error (.undefinedToken name)
  | some (.text s) => .ok s
  | some (.replace rendered) =>
    match p.params with
    | none => .ok rendered
    | some _ => .error (.paramsNotSupported (String.ofList p.raw))
  | some (.projected rendered withParams) =>
    match p.params with
    | none => .ok rendered
    | some items => .ok (withParams (String.ofList items) name)

/-- One pass: placeholders are resolved from left to right, the first failure ends it. -/
def expandSegments (tokens : Tokens) : List Segment → Except Failure (List Char)
  | [] => .ok []
  | .plain c :: rest => (expandSegments tokens rest).map (c :: ·)
  | .placeholder p :: rest =>
    match p.resolve tokens with
    | .error e => .error e
    | .ok s => (expandSegments tokens rest).map (s.toList ++ ·)

def expand (tokens : Tokens) (limit : Nat) (left : Nat) (s : List Char) :
    Except Failure (List Char) :=
  let segments := Segment.scan s
  if !segments.any Segment.isPlaceholder then .ok s
  else
    match left with
    | 0 => .error (.passLimit limit)
    | left + 1 =>
      match expandSegments tokens segments with
      | .error e => .error e
      | .ok s => expand tokens limit left (Text.collapse s)

/-- A template without placeholders is left as it is; every pass leaves single spaces. -/
def render (tokens : Tokens) (limit : Nat) (template : String) : Except Failure String :=
  (expand tokens limit limit template.toList).map String.ofList

end ClauseWeave
