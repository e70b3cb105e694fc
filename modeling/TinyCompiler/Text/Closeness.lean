/-!
# Close words

How close two words are, as the share of characters that they have in common in order: the longest
common block is counted, and then, again by longest blocks, what is left of it and what is right of
it. Of several longest blocks the first one counts.
-/

namespace TinyCompiler.Text

/-- The length of the longest common beginning of two texts. -/
def commonStart : List Char → List Char → Nat
  | a :: as, b :: bs => if a = b then commonStart as bs + 1 else 0
  | _, _ => 0

/-- A common block of two texts: where it begins in each, and its length. -/
structure Block where
  first : Nat
  second : Nat
  size : Nat

/-- The longest common block of two texts, the first one of several. -/
def longestBlock (a b : List Char) : Block :=
  (List.range a.length).foldl (fun best i =>
    (List.range b.length).foldl (fun best j =>
      let size := commonStart (a.drop i) (b.drop j)
      if best.size < size then ⟨i, j, size⟩ else best) best) ⟨0, 0, 0⟩

/-- How many characters two texts have in common, by longest blocks. -/
def commonCount (a b : List Char) : Nat :=
  let block := longestBlock a b
  if _h : 0 < block.size ∧ block.first + block.size ≤ a.length then
    block.size + commonCount (a.take block.first) (b.take block.second) +
      commonCount (a.drop (block.first + block.size)) (b.drop (block.second + block.size))
  else 0
termination_by a.length
decreasing_by
  all_goals
    simp only [block] at _h
    simp only [List.length_take, List.length_drop]
    omega

/-- A word and how close it is to another one: `common` characters of the `total` of both. -/
structure Candidate where
  word : String
  common : Nat
  total : Nat

/-- The closeness of a word. -/
def Candidate.of (meant word : String) : Candidate :=
  ⟨word, commonCount word.toList meant.toList, word.length + meant.length⟩

/-- Whether three fifths of the characters are common ones. -/
def Candidate.isClose (c : Candidate) : Bool := 3 * c.total ≤ 10 * c.common

/-- Whether a candidate is at least as close as another one; of equally close words the one that
comes later in the order of words is ahead. -/
def Candidate.isAhead (c d : Candidate) : Bool :=
  d.common * c.total < c.common * d.total ||
    (d.common * c.total == c.common * d.total && d.word ≤ c.word)

/-- The words that are close to a word, the closest three, in the order of words. -/
def closeWords (meant : String) (words : List String) : List String :=
  let close := (words.map (Candidate.of meant)).filter Candidate.isClose
  let best := (close.mergeSort Candidate.isAhead).take 3
  (best.map (·.word)).mergeSort fun a b => a ≤ b

end TinyCompiler.Text
