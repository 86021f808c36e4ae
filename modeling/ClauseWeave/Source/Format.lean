import ClauseWeave.Dict
import ClauseWeave.Value.Basic

namespace ClauseWeave

/-- What stored data is read from. The two formats disagree on which spellings count as text or as a
number, so everything else about reading is stated once, over this interface. -/
class Format (N : Type) where
  text? : N → Option String
  /-- A whole number that fits 64 bits without a sign. -/
  nat? : N → Option Nat
  value? : N → Option Value
  isNull : N → Bool
  list? : N → Option (List N)
  record? : N → Option (List (String × N))
  /-- The fields of a structure, in the given order if they may be listed without their names. -/
  fields? : List String → N → Option (List (String × N))
  tag? : N → Option String
  extra? : N → Option Value

namespace Format

variable {N : Type} [Format N] {α : Type}

/-- A named field may be given once; other fields are passed over. -/
def known (names : List String) : List (String × N) → Option (List (String × N))
  | [] => some []
  | (k, n) :: rest =>
    (known names rest).bind fun fields =>
      if k ∉ names then some fields
      else if (fields.map Prod.fst).contains k then none
      else some ((k, n) :: fields)

def positional (names : List String) (items : List N) : Option (List (String × N)) :=
  if names.length < items.length then none else some (names.zip items)

def required (fields : List (String × N)) (name : String) (read : N → Option α) : Option α :=
  (fields.lookup name).bind read

def defaulted (fields : List (String × N)) (name : String) (default : α) (read : N → Option α) :
    Option α :=
  match fields.lookup name with
  | some n => read n
  | none => some default

def nullable (read : N → Option α) (n : N) : Option (Option α) :=
  if isNull n then some none else (read n).map some

def optional (fields : List (String × N)) (name : String) (read : N → Option α) :
    Option (Option α) :=
  defaulted fields name none (nullable read)

def listOf (read : N → Option α) (n : N) : Option (List α) := (list? n).bind (·.mapM read)

def dictOf (read : N → Option α) (n : N) : Option (Dict α) :=
  (record? n).bind fun entries =>
    (entries.mapM fun e => (read e.2).map fun v => (e.1, v)).map Dict.ofList

def tagOf (ofTag? : String → Option α) (n : N) : Option α := (tag? n).bind ofTag?

end Format

end ClauseWeave
