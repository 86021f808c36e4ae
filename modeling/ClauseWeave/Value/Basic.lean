import ClauseWeave.Decimal.Binary64

namespace ClauseWeave

/-- Whole numbers from `-2 ^ 63` up to `2 ^ 64 - 1` stay whole; every other number is a float. -/
inductive Number where
  | whole (n : Int)
  | float (x : Binary64)
  deriving DecidableEq, Repr

/-- Members of an object keep the order in which their names first appeared. -/
inductive Value where
  | null
  | bool (b : Bool)
  | number (n : Number)
  | text (s : String)
  | list (items : List Value)
  | object (members : List (String × Value))
  deriving Inhabited

namespace Value

mutual

def decEq (a b : Value) : Decidable (a = b) :=
  if h : a.ctorIdx = b.ctorIdx then
    match a, b, h with
    | .null, .null, _ => isTrue rfl
    | .bool a, .bool b, _ => decidable_of_iff (a = b) (by simp)
    | .number a, .number b, _ => decidable_of_iff (a = b) (by simp)
    | .text a, .text b, _ => decidable_of_iff (a = b) (by simp)
    | .list a, .list b, _ =>
      have := decEqItems a b
      decidable_of_iff (a = b) (by simp)
    | .object a, .object b, _ =>
      have := decEqMembers a b
      decidable_of_iff (a = b) (by simp)
  else isFalse fun e => h (congrArg _ e)

def decEqItems : (a b : List Value) → Decidable (a = b)
  | [], [] => isTrue rfl
  | [], _ :: _ => isFalse nofun
  | _ :: _, [] => isFalse nofun
  | x :: xs, y :: ys =>
    have := decEq x y
    have := decEqItems xs ys
    decidable_of_iff (x = y ∧ xs = ys) (by simp)

def decEqMembers : (a b : List (String × Value)) → Decidable (a = b)
  | [], [] => isTrue rfl
  | [], _ :: _ => isFalse nofun
  | _ :: _, [] => isFalse nofun
  | (j, x) :: xs, (k, y) :: ys =>
    have := decEq x y
    have := decEqMembers xs ys
    decidable_of_iff (j = k ∧ x = y ∧ xs = ys) (by simp [and_assoc])

end

instance : DecidableEq Value := decEq

/-- A repeated name keeps its place and takes the last value. -/
def setMember (k : String) (v : α) : List (String × α) → List (String × α)
  | [] => [(k, v)]
  | (k', v') :: rest => if k' = k then (k, v) :: rest else (k', v') :: setMember k v rest

def objectOf (members : List (String × Value)) : Value :=
  .object (members.foldl (fun ms m => setMember m.1 m.2 ms) [])

def nat (n : Nat) : Value := .number (.whole n)

def isList : Value → Bool
  | .list _ => true
  | _ => false

end Value

end ClauseWeave
