import TinyCompiler.Text.Cased

/-!
# Lower-casing

Lower-casing replaces every capital by its small form. Two capitals are special: the dotted capital
`İ` becomes two characters, and the capital sigma becomes a final sigma at the end of a word and a
plain one elsewhere. A sigma ends a word if the nearest letter before it has case and the nearest
one after it, if there is any, has none; marks that are passed over count on neither side.
-/

namespace TinyCompiler.Text

/-- The small form of a code point, by the runs of capitals in ascending order. -/
def smallForm : List CapitalRun → Nat → Nat
  | [], n => n
  | run :: rest, n =>
    if n < run.first then n
    else if run.has n then (n + run.shift).toNat
    else smallForm rest n

/-- The dotted capital, the one character whose small form is two characters. -/
def dottedCapital : Char := Char.ofNat 0x130

/-- The small form of a character that does not depend on its neighbours. -/
def lowerChar (c : Char) : List Char :=
  if c = dottedCapital then ['i', Char.ofNat 0x307]
  else [Char.ofNat (smallForm capitalRuns c.toNat)]

/-- Whether the end of a word lies between the characters `before` (nearest first) and `after`. -/
def endsWord (before after : List Char) : Bool :=
  match before.dropWhile isPassedOver with
  | [] => false
  | p :: _ =>
    isCased p &&
      match after.dropWhile isPassedOver with
      | [] => true
      | q :: _ => !isCased q

/-- Lower-cases a text, given the characters before it, nearest first. -/
def lowerAfter : List Char → List Char → List Char
  | _, [] => []
  | before, c :: rest =>
    (if c = 'Σ' then [if endsWord before rest then 'ς' else 'σ'] else lowerChar c)
      ++ lowerAfter (c :: before) rest

/-- The lower-cased form of a text. -/
def lower (text : String) : String := String.ofList (lowerAfter [] text.toList)

end TinyCompiler.Text
