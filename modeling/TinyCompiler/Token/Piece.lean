import TinyCompiler.Failure
import TinyCompiler.Number.Numeral
import TinyCompiler.Text.Blank
import TinyCompiler.Text.Letter
import TinyCompiler.Text.Lowercase

/-!
# Pieces of a text

A text falls into pieces from left to right: gaps, which are single blanks and whole comments, words,
and faults, which are the characters that are no token. Every piece is as long as it can be, and the
pieces put together are the text.
-/

namespace TinyCompiler

/-- A piece of a text, with its characters. -/
inductive Piece where
  /-- A blank, or a comment with the line feed that ends it. -/
  | gap (text : List Char)
  /-- A word of the language. -/
  | word (text : List Char) (lexeme : Lexeme)
  /-- Characters that are no token. -/
  | fault (text : List Char) (fault : ScanFault)
  deriving DecidableEq, Repr

namespace Piece

/-- The characters of a piece. -/
def text : Piece → List Char
  | .gap text => text
  | .word text _ => text
  | .fault text _ => text

/-! ### The first piece of a text -/

/-- The piece of a numeral. -/
def ofNumeral (n : Numeral) : Piece :=
  match n.value? with
  | some value => .word n.text (.number value)
  | none => .fault n.text (.badNumeral (String.ofList n.text))

/-- The numeral at the start of a text, and what follows it. -/
def splitNumeral (cs : List Char) : Numeral × List Char :=
  let whole := cs.takeWhile Text.isNumeric
  match cs.dropWhile Text.isNumeric with
  | '.' :: rest => (⟨whole, some (rest.takeWhile Text.isNumeric)⟩, rest.dropWhile Text.isNumeric)
  | rest => (⟨whole, none⟩, rest)

/-- The word of a row of characters: a keyword in any case, or else a name. -/
def wordLexeme (text : List Char) : Lexeme :=
  match Keyword.ofText? (Text.lower (String.ofList text)) with
  | some k => .keyword k
  | none => .identifier (String.ofList text)

/-- The comment whose two slashes stand before `cs`, and what follows it. -/
def splitComment (cs : List Char) : Piece × List Char :=
  let body := cs.takeWhile (· != '\n')
  match cs.dropWhile (· != '\n') with
  | [] => (.fault ('/' :: '/' :: body) .openComment, [])
  | lineEnd :: rest => (.gap ('/' :: '/' :: body ++ [lineEnd]), rest)

/-- The piece of a character that begins neither a numeral, nor a word, nor a comment. -/
def single (c : Char) : Piece :=
  match Mark.ofChar? c with
  | some m => .word [c] (.mark m)
  | none => .fault [c] (.strayCharacter c)

/-- The first piece of the text `c :: cs`, and what follows it. -/
def split (c : Char) (cs : List Char) : Piece × List Char :=
  if Text.isBlank c then (.gap [c], cs)
  else if Text.isNumeric c then
    let (n, rest) := splitNumeral (c :: cs)
    (ofNumeral n, rest)
  else if Text.startsWord c then
    let text := (c :: cs).takeWhile Text.continuesWord
    (.word text (wordLexeme text), (c :: cs).dropWhile Text.continuesWord)
  else
    match c, cs with
    | '/', '/' :: rest => splitComment rest
    | _, _ => (single c, cs)

/-! ### Nothing is lost -/

theorem text_ofNumeral (n : Numeral) : (ofNumeral n).text = n.text := by
  unfold ofNumeral
  split <;> rfl

theorem text_single (c : Char) : (single c).text = [c] := by
  unfold single
  split <;> rfl

theorem splitNumeral_append (cs : List Char) :
    (splitNumeral cs).1.text ++ (splitNumeral cs).2 = cs := by
  have hcs := List.takeWhile_append_dropWhile (p := Text.isNumeric) (l := cs)
  unfold splitNumeral
  split
  · next rest h =>
    rw [h] at hcs
    simp [Numeral.text, List.append_assoc, hcs]
  · next rest _ => simp [Numeral.text]

theorem splitComment_append (cs : List Char) :
    (splitComment cs).1.text ++ (splitComment cs).2 = '/' :: '/' :: cs := by
  have hcs := List.takeWhile_append_dropWhile (p := (· != '\n')) (l := cs)
  unfold splitComment
  split
  · next h =>
    rw [h] at hcs
    simpa [text] using hcs
  · next lineEnd rest h =>
    rw [h] at hcs
    simpa [text] using hcs

/-- The first piece and what follows it make up the text. -/
theorem split_append (c : Char) (cs : List Char) :
    (split c cs).1.text ++ (split c cs).2 = c :: cs := by
  unfold split
  split
  · rfl
  · split
    · simpa [text_ofNumeral] using splitNumeral_append (c :: cs)
    · split
      · exact List.takeWhile_append_dropWhile
      · split
        · next rest _ _ _ => exact splitComment_append rest
        · simp [text_single]

theorem length_dropWhile_lt {p : Char → Bool} {c : Char} (cs : List Char) (h : p c = true) :
    ((c :: cs).dropWhile p).length < (c :: cs).length := by
  rw [List.dropWhile_cons_of_pos h]
  exact Nat.lt_succ_of_le (List.dropWhile_suffix p).length_le

theorem splitNumeral_length {c : Char} (cs : List Char) (h : Text.isNumeric c = true) :
    (splitNumeral (c :: cs)).2.length < (c :: cs).length := by
  have hdrop := length_dropWhile_lt cs h
  unfold splitNumeral
  split
  · next rest hrest =>
    rw [hrest] at hdrop
    have := (List.dropWhile_suffix (l := rest) Text.isNumeric).length_le
    simp only [List.length_cons] at hdrop ⊢
    omega
  · exact hdrop

theorem splitComment_length (cs : List Char) : (splitComment cs).2.length ≤ cs.length := by
  have hdrop := (List.dropWhile_suffix (l := cs) (· != '\n')).length_le
  unfold splitComment
  split
  · exact Nat.zero_le _
  · next lineEnd rest h =>
    rw [h] at hdrop
    exact Nat.le_of_succ_le hdrop

/-- A piece is never empty: what follows the first piece is shorter than the text. -/
theorem split_length (c : Char) (cs : List Char) : (split c cs).2.length < (c :: cs).length := by
  unfold split
  split
  · exact Nat.lt_succ_self _
  · split
    · next h => exact splitNumeral_length cs h
    · split
      · next h => exact length_dropWhile_lt cs (Text.continuesWord_of_startsWord h)
      · split
        · next rest _ _ _ =>
          have := splitComment_length rest
          simp only [List.length_cons]
          omega
        · exact Nat.lt_succ_self _

end Piece

end TinyCompiler
