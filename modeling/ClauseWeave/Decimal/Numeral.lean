import ClauseWeave.Value.Basic

namespace ClauseWeave

structure Numeral where
  negative : Bool
  whole : List Char
  fraction : List Char
  exponent : Option (Bool × List Char)
  deriving DecidableEq, Repr

namespace Numeral

def digit (c : Char) : Nat := c.toNat - 48

def greatest : Nat := UInt64.size - 1

/-- `significand · 10 ^ exponent`, the significand below `2 ^ 64`. -/
structure Scaled where
  significand : Nat
  exponent : Int

/-- Digits in front of the point; from the first that does not fit they only raise the exponent. -/
def takeWhole (s : Scaled) : List Char → Scaled
  | [] => s
  | c :: rest =>
    let next := s.significand * 10 + digit c
    if s.exponent = 0 ∧ next ≤ greatest then takeWhole ⟨next, 0⟩ rest
    else takeWhole ⟨s.significand, s.exponent + 1⟩ rest

/-- Digits behind the point; from the first that does not fit they are dropped. -/
def takeFraction (s : Scaled) : List Char → Scaled
  | [] => s
  | c :: rest =>
    let next := s.significand * 10 + digit c
    if next ≤ greatest then takeFraction ⟨next, s.exponent - 1⟩ rest else s

def natOf (digits : List Char) : Nat := digits.foldl (fun n c => 10 * n + digit c) 0

def greatestPower : Nat := 308

def scale : Nat → Binary64 → Int → Option Binary64
  | 0, x, _ => some x
  | steps + 1, x, e =>
    if e.natAbs ≤ greatestPower then
      (Binary64.ofRatio? (Nat.pow 10 e.natAbs) 1).bind fun power =>
        if 0 ≤ e then x.mul? power else x.div? power
    else if x.isZero then some x
    else if 0 < e then none
    else
      (Binary64.ofRatio? (Nat.pow 10 greatestPower) 1).bind fun power =>
        (x.div? power).bind fun x => scale steps x (e + greatestPower)

def Scaled.float? (s : Scaled) : Option Binary64 :=
  (Binary64.ofRatio? s.significand 1).bind fun x => scale 5 x s.exponent

/-- An exponent of more than 31 bits leaves nothing of a small number and is refused for a great
one. -/
def magnitude? (s : Scaled) : Option (Bool × List Char) → Option Binary64
  | none => s.float?
  | some (negative, digits) =>
    let e := natOf digits
    if Nat.pow 2 31 ≤ e then
      if s.significand ≠ 0 ∧ !negative then none else some .zero
    else
      Scaled.float? ⟨s.significand, if negative then s.exponent - e else s.exponent + e⟩

def signed (negative : Bool) (x : Binary64) : Number := .float (if negative then x.neg else x)

def value? (n : Numeral) : Option Number :=
  let s := takeWhole ⟨0, 0⟩ n.whole
  if n.fraction.isEmpty && n.exponent.isNone && s.exponent = 0 then
    if !n.negative then some (.whole s.significand)
    else if 0 < s.significand ∧ s.significand ≤ Nat.pow 2 63 then some (.whole (-s.significand))
    else (s.float?).map (signed true)
  else (magnitude? (takeFraction s n.fraction) n.exponent).map (signed n.negative)

end Numeral

end ClauseWeave
