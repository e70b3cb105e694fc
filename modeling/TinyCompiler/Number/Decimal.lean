import TinyCompiler.Number.Binary64

/-!
# Decimal numerals

A decimal numeral `digits · 10 ^ exponent`, and the floating-point number nearest to it.
-/

namespace TinyCompiler

/-- The number `digits · 10 ^ exponent`. -/
structure Decimal where
  digits : Nat
  exponent : Int
  deriving DecidableEq, Repr

namespace Decimal

/-- The value of a row of digits, the first being the most significant. -/
def ofDigits (digits : List Nat) : Nat := digits.foldl (fun n d => 10 * n + d) 0

/-- Past this power of ten every number but zero is too large for a finite one, and below its
inverse every number rounds to zero. -/
def farExponent : Int := 400

/-- The floating-point number nearest to `±` a decimal numeral. -/
def toBinary64 (negative : Bool) (d : Decimal) : Binary64 :=
  if d.digits = 0 ∨ d.exponent + Nat.log2 d.digits + 1 < -farExponent then
    .finite negative 0 Binary64.leastExponent
  else if farExponent < d.exponent then .infinite negative
  else
    let (a, b) := Binary64.scaleRatio 10 d.digits 1 (-d.exponent)
    Binary64.ofRatio negative a b

end Decimal

end TinyCompiler
