import ClauseWeave.Value.Basic

namespace ClauseWeave

inductive Comparison where
  | equal | notEqual | greater | less | atLeast | atMost
  deriving DecidableEq, Repr

def Comparison.sign : Comparison → String
  | .equal => "="
  | .notEqual => "<>"
  | .greater => ">"
  | .less => "<"
  | .atLeast => ">="
  | .atMost => "<="

inductive TextMatch where
  | atStart | anywhere | atEnd
  deriving DecidableEq, Repr

/-- The last three kinds come in a plain and a negated form. -/
inductive Operator where
  | compare (c : Comparison)
  | like (m : TextMatch)
  | among (negated : Bool)
  | between (negated : Bool)
  | null (negated : Bool)
  deriving DecidableEq, Repr

namespace Operator

def tag : Operator → String
  | compare c => c.sign
  | like .atStart => "starts_with"
  | like .anywhere => "contains"
  | like .atEnd => "ends_with"
  | among false => "in"
  | among true => "not_in"
  | between false => "between"
  | between true => "not_between"
  | null false => "is_null"
  | null true => "is_not_null"

def all : List Operator := [
  compare .equal, compare .notEqual, compare .greater, compare .less, compare .atLeast,
  compare .atMost, like .atStart, like .anywhere, like .atEnd, among false, among true,
  between false, between true, null false, null true]

def ofTag? (s : String) : Option Operator := all.find? (·.tag = s)

theorem mem_all (op : Operator) : op ∈ all := by
  rcases op with c | m | n | n | n
  · cases c <;> decide
  · cases m <;> decide
  all_goals cases n <;> decide

theorem ofTag?_tag (op : Operator) : ofTag? op.tag = some op := by
  rcases op with c | m | n | n | n
  · cases c <;> decide
  · cases m <;> decide
  all_goals cases n <;> decide

def arity : Operator → Nat
  | null _ => 0
  | between _ => 2
  | _ => 1

def isComparison : Operator → Bool
  | compare _ => true
  | _ => false

end Operator

structure Filter where
  path : String
  operator : Operator
  value : Value
  deriving DecidableEq

def Filter.withPath (f : Filter) (path : String) : Filter := { f with path }

inductive Connective where
  | and | or
  deriving DecidableEq, Repr, Inhabited

namespace Connective

def word : Connective → String
  | and => "AND"
  | or => "OR"

def separator (c : Connective) : String := " " ++ c.word ++ " "

def ofTag? (s : String) : Option Connective :=
  if s = "AND" ∨ s = "and" then some and
  else if s = "OR" ∨ s = "or" then some or
  else none

/-- Typed by hand, a connective may be in any letter case. -/
def parse (s : String) : Except String Connective :=
  let upper := String.ofList (s.toList.map Char.toUpper)
  if upper = "AND" then .ok and
  else if upper = "OR" then .ok or
  else .error ("Invalid connective: " ++ s ++ ". Use 'and' or 'or'")

end Connective

inductive Direction where
  | ascending | descending
  deriving DecidableEq, Repr, Inhabited

namespace Direction

def word : Direction → String
  | ascending => "ASC"
  | descending => "DESC"

def ofTag? (s : String) : Option Direction :=
  if s = "ASC" ∨ s = "asc" then some ascending
  else if s = "DESC" ∨ s = "desc" then some descending
  else none

end Direction

structure OrderTerm where
  name : String
  direction : Direction
  deriving DecidableEq, Repr

end ClauseWeave
