/-!
# Numbers of 64 bits in base two

The numbers of the language are floating-point numbers with a significand of 53 bits. They are kept
as exact data, and rounding is done on ratios of natural numbers: to the nearest representable
number, and to the one with the even significand where two are equally near.
-/

namespace TinyCompiler

/-- A floating-point number of 64 bits. -/
inductive Binary64 where
  /-- No number at all. -/
  | nan
  /-- One of the two infinities. -/
  | infinite (negative : Bool)
  /-- The number `± significand · 2 ^ exponent`. -/
  | finite (negative : Bool) (significand : Nat) (exponent : Int)
  deriving DecidableEq, Repr

namespace Binary64

/-- The least exponent of a finite number. -/
def leastExponent : Int := -1074

/-- The greatest exponent of a finite number. -/
def greatestExponent : Int := 971

/-- Zero. -/
def zero : Binary64 := .finite false 0 leastExponent

/-- The natural number nearest to `num / den`, the even one of two equally near. -/
def roundRatio (num den : Nat) : Nat :=
  let q := num / den
  let twice := 2 * (num % den)
  if twice > den ∨ (twice = den ∧ q % 2 = 1) then q + 1 else q

/-- The ratio `(num / den) / base ^ k` as numerator and denominator. -/
def scaleRatio (base num den : Nat) (k : Int) : Nat × Nat :=
  if 0 ≤ k then (num, den * base.pow k.toNat) else (num * base.pow (-k).toNat, den)

/-- The exponent at which `num / den` has a significand of 53 bits, or the least exponent where that
would be smaller still. -/
def exponentFor (num den : Nat) : Int :=
  let guess : Int := (Nat.log2 num : Int) - Nat.log2 den - 53
  let (a, b) := scaleRatio 2 num den guess
  max leastExponent (if a / b < Nat.pow 2 53 then guess else guess + 1)

/-- The number nearest to `± num / den`; what is too large for a finite number is infinite. -/
def ofRatio (negative : Bool) (num den : Nat) : Binary64 :=
  if num = 0 then .finite negative 0 leastExponent
  else
    let e := exponentFor num den
    let (a, b) := scaleRatio 2 num den e
    let m := roundRatio a b
    let (m, e) := if m = Nat.pow 2 53 then (Nat.pow 2 52, e + 1) else (m, e)
    if greatestExponent < e then .infinite negative else .finite negative m e

/-- The number nearest to a natural number. -/
def ofNat (n : Nat) : Binary64 := ofRatio false n 1

/-- Whether a number is finite. -/
def isFinite : Binary64 → Bool
  | .finite .. => true
  | _ => false

/-- The absolute value of a finite number as a ratio. -/
def ratio (significand : Nat) (exponent : Int) : Nat × Nat :=
  scaleRatio 2 significand 1 (-exponent)

/-- Equality as numbers: the two zeros are equal, and what is no number equals nothing. -/
def same : Binary64 → Binary64 → Bool
  | .infinite s, .infinite t => s == t
  | .finite s m e, .finite t n f => (m == 0 && n == 0) || (s == t && m == n && e == f)
  | _, _ => false

/-- The absolute value of a finite number without what stands after the point. -/
def wholePart (significand : Nat) (exponent : Int) : Nat :=
  let (a, b) := ratio significand exponent
  a / b

end Binary64

end TinyCompiler
