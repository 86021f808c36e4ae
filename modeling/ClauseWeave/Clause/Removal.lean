import ClauseWeave.Clause.Tidy

namespace ClauseWeave.Removal

open Text

def touchesWord (s : List Char) : Bool := (s.head?.map isNameChar).getD false

/-- A clause around a cut; what stands before it is held backwards. -/
structure Cut where
  before : List Char
  after : List Char

/-- The first occurrence of `needle` that no word character touches. An occurrence that is passed
over is skipped whole. -/
def search (needle : List Char) (before : List Char) (s : List Char) : Option Cut :=
  match s with
  | [] => none
  | c :: rest =>
    match after? needle (c :: rest) with
    | some after =>
      if !touchesWord before && !touchesWord after then some ⟨before, after⟩
      else if _h : after.length < (c :: rest).length then
        search needle (needle.reverse ++ before) after
      else none
    | none => search needle (c :: before) rest
termination_by s.length
decreasing_by
  · exact _h
  · exact Nat.lt_succ_self _

def find? (clause fragment : List Char) : Option Cut :=
  if fragment.isEmpty then none else search fragment [] clause

def absorb (before after : List Char) : Cut :=
  match _h : trimStart before, trimStart after with
  | '(' :: b, ')' :: a => absorb b a
  | _, _ => ⟨before, after⟩
termination_by before.length
decreasing_by
  have := (List.dropWhile_sublist isBlank (l := before)).length_le
  simp only [trimStart] at _h
  simp only [_h, List.length_cons] at this
  omega

def connectives : List (List Char) := [['A', 'N', 'D'], ['O', 'R']]

def connectiveBefore? (before : List Char) : Option (List Char) :=
  connectives.findSome? fun word =>
    (after? word.reverse (trimStart before)).filter fun head =>
      (head.head?.map fun c => isBlank c || c == ')').getD true

def connectiveAfter? (after : List Char) : Option (List Char) :=
  connectives.findSome? fun word =>
    (after? word (trimStart after)).filter fun tail =>
      (tail.head?.map fun c => isBlank c || c == '(').getD false

/-- One connective goes with the cut, the one on its left if there is one. -/
def Cut.close (cut : Cut) : List Char :=
  match connectiveBefore? cut.before with
  | some head => (trimStart head).reverse ++ cut.after
  | none =>
    match connectiveAfter? cut.after with
    | some tail => cut.before.reverse ++ trimStart tail
    | none => cut.before.reverse ++ cut.after

def remove? (clause fragment : List Char) : Option (List Char) :=
  (find? clause fragment).map fun cut => (absorb cut.before cut.after).close

def removeAll (clause : List Char) : List (List Char) → List Char
  | [] => clause
  | fragment :: rest =>
    match remove? clause fragment with
    | some left => removeAll (Tidy.tidy left) rest
    | none => removeAll clause rest

end ClauseWeave.Removal
