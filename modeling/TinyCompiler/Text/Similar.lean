import TinyCompiler.Text.Lowercase

/-!
# Similar names

Names that a misspelt name may have been meant for. The measure is the least number of insertions,
deletions and substitutions of single characters that turn one text into another, computed row by
row: the row of a prefix of the first text holds its distances to all prefixes of the second.
-/

namespace TinyCompiler.Text

/-- The rest of a row, after an entry `left`, for the character `c`. The entries above it start at
`diagonal`, and `across` holds the characters of the columns. -/
def rowFrom (c : Char) : (left diagonal : Nat) → (above : List Nat) → (across : List Char) → List Nat
  | left, diagonal, up :: above, d :: across =>
    let entry := if c = d then diagonal else 1 + min diagonal (min up left)
    entry :: rowFrom c entry up above across
  | _, _, _, _ => []

/-- The row that follows `row` when the first text goes on with `c`. -/
def nextRow (across : List Char) (row : List Nat) (c : Char) : List Nat :=
  match row with
  | [] => []
  | first :: above => (first + 1) :: rowFrom c (first + 1) first above across

/-- The row of a text: its distances to all prefixes of `across`. -/
def distanceRow (down across : List Char) : List Nat :=
  down.foldl (nextRow across) (List.range (across.length + 1))

/-- The least number of insertions, deletions and substitutions of single characters that turn one
text into the other. The shorter text is laid out across, which keeps the rows short. -/
def editDistance (a b : String) : Nat :=
  let (down, across) := if a.length < b.length then (b, a) else (a, b)
  (distanceRow down.toList across.toList).getLastD 0

/-- Whether `candidate` may be meant by `name`: they differ in case only, or their lengths differ by
at most one and two edits lead from one to the other, case set aside. -/
def isSimilar (name candidate : String) : Bool :=
  let near := candidate.length ≤ name.length + 1 && name.length ≤ candidate.length + 1
  lower candidate == lower name || near && editDistance (lower name) (lower candidate) ≤ 2

/-- The first three candidates that may be meant by a name. -/
def similarNames (name : String) (candidates : List String) : List String :=
  (candidates.filter (isSimilar name)).take 3

end TinyCompiler.Text
