namespace ClauseWeave

/-- The number `± significand · 2 ^ exponent`; zero keeps its sign. All that is computed with it is
computed on natural numbers, so no rounding happens but the one stated. -/
structure Binary64 where
  negative : Bool
  significand : Nat
  exponent : Int
  deriving DecidableEq, Repr

namespace Binary64

def leastExponent : Int := -1074

def greatestExponent : Int := 971

def zero : Binary64 := ⟨false, 0, leastExponent⟩

def neg (x : Binary64) : Binary64 := { x with negative := !x.negative }

def isZero (x : Binary64) : Bool := x.significand == 0

def roundHalfEven (num den : Nat) : Nat :=
  let q := num / den
  let twice := 2 * (num % den)
  if twice < den then q
  else if den < twice then q + 1
  else q + q % 2

def scaleDown (num den : Nat) (e : Int) : Nat × Nat :=
  if 0 ≤ e then (num, den * Nat.pow 2 e.toNat) else (num * Nat.pow 2 (-e).toNat, den)

def fittingExponent (num den : Nat) : Int :=
  let e : Int := (Nat.log2 num : Int) - Nat.log2 den - 53
  let (n, d) := scaleDown num den e
  let fitted := if n / d < Nat.pow 2 53 then e else e + 1
  if fitted < leastExponent then leastExponent else fitted

/-- The nearest number to a quotient, a half going to the even one; `none` beyond the greatest. -/
def ofRatio? (num den : Nat) : Option Binary64 :=
  if num = 0 then some zero
  else
    let e := fittingExponent num den
    let (n, d) := scaleDown num den e
    let m := roundHalfEven n d
    let (m, e) := if m = Nat.pow 2 53 then (Nat.pow 2 52, e + 1) else (m, e)
    if greatestExponent < e then none
    else some ⟨false, m, if m = 0 then leastExponent else e⟩

def ratio (x : Binary64) : Nat × Nat :=
  if 0 ≤ x.exponent then (x.significand * Nat.pow 2 x.exponent.toNat, 1)
  else (x.significand, Nat.pow 2 (-x.exponent).toNat)

def mul? (x y : Binary64) : Option Binary64 :=
  let (a, b) := x.ratio
  let (c, d) := y.ratio
  ofRatio? (a * c) (b * d)

def div? (x y : Binary64) : Option Binary64 :=
  let (a, b) := x.ratio
  let (c, d) := y.ratio
  ofRatio? (a * d) (b * c)

/-- The nearest number to `digits · 10 ^ exponent`. Exponents far outside the range are settled by
the count of digits, so no huge power is computed. -/
def ofDecimal? (digits : Nat) (exponent : Int) : Option Binary64 :=
  if digits = 0 then some zero
  else
    let magnitude : Int := Nat.log2 digits / 3 + exponent
    if exponent > 400 then none
    else if magnitude < -400 then some zero
    else if 0 ≤ exponent then ofRatio? (digits * Nat.pow 10 exponent.toNat) 1
    else ofRatio? digits (Nat.pow 10 (-exponent).toNat)

end Binary64

end ClauseWeave
