import TinyCompiler.Number.Decimal

/-!
# Numbers as text

A number is written with its significant decimal digits, either the fewest that read back as the
same number or a fixed count, and the digits are laid out with a point or with a power of ten.
-/

namespace TinyCompiler

namespace Binary64

/-! ### The digits of a number -/

/-- The power of ten of the first significant digit of the positive ratio `num / den`. -/
def leadingPower (num den : Nat) : Int :=
  let guess : Int := (Nat.toDigits 10 num).length - (Nat.toDigits 10 den).length
  let (a, b) := scaleRatio 10 num den guess
  if b ≤ a then guess else guess - 1

/-- Significant digits: a row of digits, and the power of ten of the first of them. -/
structure Digits where
  row : Nat
  power : Int

/-- A row rounded up to one digit more than `count` is a one with zeros, a power of ten higher. -/
def Digits.carried (count : Nat) (d : Digits) : Digits :=
  if d.row = Nat.pow 10 count then ⟨Nat.pow 10 (count - 1), d.power + 1⟩ else d

/-- The number rounded to `count` significant digits. -/
def roundedDigits (count : Nat) (num den : Nat) : Digits :=
  let power := leadingPower num den
  let (a, b) := scaleRatio 10 num den (power - count + 1)
  Digits.carried count ⟨roundRatio a b, power⟩

/-- The nearest row of `count` digits that reads back as the number, if there is one. Only the two
neighbours of the number on the grid of that many digits can be such a row. -/
def digitsReadingBack? (significand : Nat) (exponent : Int) (count : Nat) : Option Digits :=
  let (num, den) := ratio significand exponent
  let power := leadingPower num den
  let step := power - count + 1
  let (a, b) := scaleRatio 10 num den step
  let below := a / b
  let readsBack (row : Nat) : Bool :=
    Decimal.toBinary64 false ⟨row, step⟩ == .finite false significand exponent
  let nearest := roundRatio a b
  let other := if nearest = below then below + 1 else below
  ([nearest, other].find? readsBack).map fun row => Digits.carried count ⟨row, power⟩

/-- The fewest digits that read back as the number; seventeen are always enough. -/
def fewestDigits (significand : Nat) (exponent : Int) : Digits :=
  match (List.range' 1 17).findSome? (digitsReadingBack? significand exponent) with
  | some d => d
  | none => let (a, b) := ratio significand exponent; roundedDigits 17 a b

/-! ### Laying out digits -/

/-- How digits are laid out. -/
structure Style where
  /-- Numbers from this power of ten on are written with a power of ten. -/
  powersFrom : Int
  /-- Whether a whole number keeps a point and one zero. -/
  keepsPoint : Bool

/-- A row of digits as text, without the zeros at its end. -/
def digitText (row : Nat) : List Char :=
  match ((Nat.toDigits 10 row).reverse.dropWhile (· == '0')).reverse with
  | [] => ['0']
  | text => text

/-- The power of ten as text: its sign and at least two digits. -/
def powerText (power : Int) : List Char :=
  'e' :: (if power < 0 then '-' else '+') :: (Nat.toDigits 10 power.natAbs).leftpad 2 '0'

/-- Lays out digits of which the first has the given power of ten. -/
def Style.layOut (style : Style) (digits : List Char) (power : Int) : List Char :=
  if power < -4 ∨ style.powersFrom ≤ power then
    digits.take 1 ++ (if digits.length ≤ 1 then [] else '.' :: digits.drop 1) ++ powerText power
  else if power < 0 then
    '0' :: '.' :: List.replicate (power.natAbs - 1) '0' ++ digits
  else
    let count := power.toNat + 1
    let whole := (digits.take count).rightpad count '0'
    let places := digits.drop count
    if places.isEmpty then whole ++ (if style.keepsPoint then ['.', '0'] else [])
    else whole ++ '.' :: places

/-- Writes a number in a style, given the digits of a positive finite number. -/
def write (style : Style) (digits : Nat → Int → Digits) : Binary64 → String
  | .nan => "nan"
  | .infinite negative => if negative then "-inf" else "inf"
  | .finite negative significand exponent =>
    let text :=
      if significand = 0 then style.layOut ['0'] 0
      else
        let d := digits significand exponent
        style.layOut (digitText d.row) d.power
    String.ofList (if negative then '-' :: text else text)

/-- The full form: the fewest digits that read back, always with a point or a power of ten, and with
a power of ten from `10 ^ 16` on. -/
def full : Binary64 → String := write ⟨16, true⟩ fewestDigits

/-- The brief form: six significant digits, and a power of ten from `10 ^ 6` on. -/
def brief : Binary64 → String :=
  write ⟨6, false⟩ fun significand exponent =>
    let (a, b) := ratio significand exponent
    roundedDigits 6 a b

end Binary64

end TinyCompiler
