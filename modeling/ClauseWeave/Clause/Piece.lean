import ClauseWeave.Dict
import ClauseWeave.Text.Word

namespace ClauseWeave

inductive Piece where
  | other (c : Char)
  | cast
  | marker (name : List Char)
  | literal (text : List Char)
  deriving DecidableEq, Repr

namespace Piece

/-- Two readings of a query text differ in what a name is made of and in whether quotes hide what
they enclose. -/
structure Reading where
  isName : Char → Bool
  literals : Bool

/-- Names of markers as attributes spell them; quotes are plain characters. -/
def Reading.wide : Reading := ⟨Text.isWord, false⟩

/-- Names as slots are filled; nothing inside quotes is a marker. -/
def Reading.narrow : Reading := ⟨Text.isNameChar, true⟩

def isQuote (c : Char) : Bool := c == '\''

def chars : Piece → List Char
  | other c => [c]
  | cast => [':', ':']
  | marker name => ':' :: name
  | literal text => text

def literalRest : List Char → List Char × List Char
  | [] => ([], [])
  | c :: rest =>
    if isQuote c then ([c], rest)
    else
      let (inside, after) := literalRest rest
      (c :: inside, after)

theorem literalRest_append (s : List Char) : (literalRest s).1 ++ (literalRest s).2 = s := by
  induction s with
  | nil => rfl
  | cons c rest ih => by_cases h : isQuote c <;> simp [literalRest, h, ih]

theorem length_literalRest_le (s : List Char) : (literalRest s).2.length ≤ s.length := by
  have := congrArg List.length (literalRest_append s)
  simp only [List.length_append] at this
  omega

theorem length_dropWhile_le (p : Char → Bool) (s : List Char) : (s.dropWhile p).length ≤ s.length :=
  (List.dropWhile_sublist p).length_le

def pieces (r : Reading) : List Char → List Piece
  | [] => []
  | c :: rest =>
    if r.literals && isQuote c then
      literal (c :: (literalRest rest).1) :: pieces r (literalRest rest).2
    else if c = ':' then
      match rest with
      | ':' :: rest => cast :: pieces r rest
      | rest =>
        let name := rest.takeWhile r.isName
        if name.isEmpty then other c :: pieces r rest
        else marker name :: pieces r (rest.dropWhile r.isName)
    else other c :: pieces r rest
termination_by s => s.length
decreasing_by
  · have := length_literalRest_le rest
    simp only [List.length_cons]
    omega
  all_goals simp only [List.length_cons]
  · omega
  · omega
  · have := length_dropWhile_le r.isName rest
    omega
  · omega

theorem flatMap_chars_pieces (r : Reading) (s : List Char) : (pieces r s).flatMap chars = s := by
  fun_induction pieces r s with
  | case1 => rfl
  | case2 c rest h ih => simp [chars, ih, literalRest_append]
  | case3 rest _ ih => simp [chars, ih]
  | case4 rest _ name _ _ ih => simp [chars, ih]
  | case5 rest _ name _ _ ih => simp [chars, ih, name, List.takeWhile_append_dropWhile]
  | case6 c rest _ _ ih => simp [chars, ih]

def markerName? : Piece → Option String
  | marker name => some (String.ofList name)
  | _ => none

def rename (renames : Dict String) : Piece → Piece
  | marker name => marker ((renames.get? (String.ofList name)).elim name String.toList)
  | p => p

end Piece

def markersIn (s : String) : List String :=
  (Piece.pieces .wide s.toList).filterMap Piece.markerName?

/-- Every marker that has a new name takes it, all in one pass. -/
def relabel (renames : Dict String) (s : String) : String :=
  String.ofList ((Piece.pieces .wide s.toList).flatMap fun p => (p.rename renames).chars)

end ClauseWeave
