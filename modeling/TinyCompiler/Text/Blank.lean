import TinyCompiler.Text.Ranges

/-!
# Blank characters

The characters that separate tokens and mean nothing else: spaces of every width, line and
paragraph ends, and the control characters that act as separators.
-/

namespace TinyCompiler.Text

/-- The code points of blank characters. -/
def blankRanges : Ranges :=
  [(0x9, 0xD), (0x1C, 0x20), (0x85, 0x85), (0xA0, 0xA0), (0x1680, 0x1680), (0x2000, 0x200A),
   (0x2028, 0x2029), (0x202F, 0x202F), (0x205F, 0x205F), (0x3000, 0x3000)]

/-- Whether a character is blank. -/
def isBlank (c : Char) : Bool := blankRanges.has c.toNat

/-- The table is in order, so `Ranges.has_eq_true_iff` applies to it. -/
theorem blankRanges_sorted : blankRanges.sortedFrom 0 = true := by decide +kernel

end TinyCompiler.Text
