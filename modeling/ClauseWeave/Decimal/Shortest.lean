import ClauseWeave.Decimal.Binary64

namespace ClauseWeave

structure Decimal where
  digits : Nat
  exponent : Int
  deriving DecidableEq, Repr

namespace Decimal

/-- The numbers that round to one binary number lie between `low` and `high`; all three are counted
in quarters of `2 ^ exponent`, the ends belong to it if `closed`. -/
structure Rounding where
  low : Nat
  value : Nat
  high : Nat
  exponent : Int
  closed : Bool

def Rounding.of (x : Binary64) : Rounding :=
  let m := x.significand
  let atPower := m = Nat.pow 2 52 ∧ Binary64.leastExponent < x.exponent
  { low := 4 * m - (if atPower then 1 else 2)
    value := 4 * m
    high := 4 * m + 2
    exponent := x.exponent - 2
    closed := m % 2 == 0 }

def onOneScale (d : Nat) (k : Int) (q : Nat) (e : Int) : Nat × Nat :=
  let left := d * Nat.pow 10 k.toNat * Nat.pow 2 (-e).toNat
  let right := q * Nat.pow 2 e.toNat * Nat.pow 10 (-k).toNat
  (left, right)

def Rounding.contains (r : Rounding) (d : Nat) (k : Int) : Bool :=
  let (a, low) := onOneScale d k r.low r.exponent
  let (b, high) := onOneScale d k r.high r.exponent
  if r.closed then low ≤ a && b ≤ high else low < a && b < high

def Rounding.nearer (r : Rounding) (d : Nat) (k : Int) : Nat :=
  let (a, v) := onOneScale (2 * d + 1) k (2 * r.value) r.exponent
  if v < a then d else if a < v then d + 1 else d + d % 2

def Rounding.below (r : Rounding) (k : Int) : Nat :=
  let (a, v) := onOneScale 1 k r.value r.exponent
  v / a

def Rounding.leading (r : Rounding) : Int :=
  let whole := r.below 0
  if 0 < whole then (Nat.toDigits 10 whole).length - 1
  else
    let places := (List.range 400).find? fun j => 0 < r.below (Int.negOfNat j)
    Int.negOfNat (places.getD 0)

def Rounding.withDigits? (r : Rounding) (first : Int) (count : Nat) : Option Decimal :=
  let k := first - count + 1
  let d := r.below k
  match r.contains d k, r.contains (d + 1) k with
  | true, true => some ⟨r.nearer d k, k⟩
  | true, false => some ⟨d, k⟩
  | false, true => some ⟨d + 1, k⟩
  | false, false => none

def strip : Nat → Decimal → Decimal
  | 0, x => x
  | fuel + 1, x =>
    if x.digits ≠ 0 ∧ x.digits % 10 = 0 then strip fuel ⟨x.digits / 10, x.exponent + 1⟩ else x

/-- The first grid of 1, 2, … 17 digits that has a point reading back to `x`. -/
def shortest (x : Binary64) : Decimal :=
  if x.isZero then ⟨0, 0⟩
  else
    let r := Rounding.of x
    let first := r.leading
    match (List.range 17).findSome? fun n => r.withDigits? first (n + 1) with
    | some d => strip 20 d
    | none => ⟨0, 0⟩

def zeros (n : Nat) : String := String.ofList (List.replicate n '0')

/-- Numbers from `10 ^ -5` up to `10 ^ 16` are written positionally and always with a point; the
others with a signed exponent. -/
def layout (x : Decimal) : String :=
  if x.digits = 0 then "0.0"
  else
    let ds := Nat.toDigits 10 x.digits
    let first : Int := ds.length + x.exponent - 1
    if first < -5 ∨ 16 ≤ first then
      let fraction := ds.drop 1
      let mantissa := ds.take 1 ++ (if fraction.isEmpty then [] else '.' :: fraction)
      let sign := if first < 0 then "e-" else "e+"
      String.ofList mantissa ++ sign ++ toString first.natAbs
    else if 0 ≤ x.exponent then
      String.ofList ds ++ zeros x.exponent.toNat ++ ".0"
    else if 0 ≤ first then
      let whole := (first + 1).toNat
      String.ofList (ds.take whole) ++ "." ++ String.ofList (ds.drop whole)
    else "0." ++ zeros (-first - 1).toNat ++ String.ofList ds

end Decimal

def Binary64.text (x : Binary64) : String :=
  (if x.negative then "-" else "") ++ (Decimal.shortest x).layout

end ClauseWeave
