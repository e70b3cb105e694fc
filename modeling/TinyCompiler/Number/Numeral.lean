import TinyCompiler.Number.Decimal
import TinyCompiler.Text.Numeric

/-!
# Numerals of the language

A numeral is a run of numeric characters, which a point and a further run may follow. Only decimal
digits give it a value; the digits may come from any script. A numeral without a point stands for a
whole number, which must not be too long or too large; one with a point has no such limits, and what
is too large becomes infinite.
-/

namespace TinyCompiler

/-- A numeral: the characters before the point and, if there is a point, those after it. -/
structure Numeral where
  whole : List Char
  places : Option (List Char)
  deriving DecidableEq, Repr

namespace Numeral

/-- A whole number may have this many digits. -/
def maxWholeDigits : Nat := 4300

/-- The characters of the numeral. -/
def text (n : Numeral) : List Char :=
  match n.places with
  | none => n.whole
  | some places => n.whole ++ '.' :: places

/-- The values of a row of decimal digits; no value if another character is among them. -/
def digitValues? (cs : List Char) : Option (List Nat) := cs.mapM Text.digitValue?

/-- The value of a whole number of `digits`. -/
def wholeValue? (digits : List Nat) : Option Binary64 :=
  if maxWholeDigits < digits.length then none
  else
    let value := Binary64.ofNat (Decimal.ofDigits digits)
    if value.isFinite then some value else none

/-- The value of a numeral, if it has one. -/
def value? (n : Numeral) : Option Binary64 :=
  match n.places with
  | none => digitValues? n.whole >>= wholeValue?
  | some places =>
    (digitValues? (n.whole ++ places)).map fun digits =>
      Decimal.toBinary64 false ⟨Decimal.ofDigits digits, -places.length⟩

end Numeral

end TinyCompiler
