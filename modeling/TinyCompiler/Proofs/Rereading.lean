import Mathlib.Tactic.Lemma
import TinyCompiler.Node.Outline
import TinyCompiler.Proofs.Completeness
import TinyCompiler.Proofs.Tiling

/-!
# Expressions read back

An expression that is written down with all its parentheses is read as the same expression. Its text
has the same words wherever it stands, as long as nothing follows it that could go on with a word
(`HasWords`), and these words are derived as the expression itself, which needs no levels since all
operations are in parentheses (`Node.IsRereadable.writtenAs`). What is derived is read.

The names and the numbers must themselves be words. A number is written with six digits, and where
they are not enough, or where a sign or a power of ten is written, it is not read as itself.
-/

namespace TinyCompiler

/-! ### Words of a text -/

/-- The words of a tiling do not depend on what stands before it. -/
lemma Tiles.exists_moved {file : String} {before text after : List Char} {ts : List Token}
    (h : Tiles file before text after ts) (before' : List Char) :
    ∃ ts', Tiles file before' text after ts' ∧ ts'.map (·.lexeme) = ts.map (·.lexeme) := by
  induction h generalizing before' with
  | nil => exact ⟨[], .nil, rfl⟩
  | @gap before gap text after ts hgap hrest ih =>
    obtain ⟨ts', htiles, hwords⟩ := ih (before' ++ gap)
    exact ⟨ts', .gap hgap htiles, hwords⟩
  | @lexeme before word text after lexeme ts hword hrest ih =>
    obtain ⟨ts', htiles, hwords⟩ := ih (before' ++ word)
    exact ⟨_, .lexeme hword htiles, by simp [hwords]⟩

/-- A text has the given words wherever it stands, if a delimiter or nothing comes after it. -/
def HasWords (file : String) (text : List Char) (words : List Lexeme) : Prop :=
  ∀ before after, (∀ c ∈ after.head?, IsDelimiter c) →
    ∃ ts, Tiles file before text after ts ∧ ts.map (·.lexeme) = words

namespace HasWords

variable {file : String} {u v : List Char} {w w' : List Lexeme}

lemma of_scan {text : String} {ts : List Token} (h : scan file text = .ok ts) :
    HasWords file text.toList (ts.map (·.lexeme)) := by
  intro before after hafter
  exact ((tiles_of_scan h).of_delimiter hafter).exists_moved before

lemma nil : HasWords file [] [] := fun _ _ _ => ⟨[], .nil, rfl⟩

/-- Words end before a delimiter. -/
lemma append (hu : HasWords file u w) (hv : HasWords file v w')
    (hhead : ∀ c ∈ v.head?, IsDelimiter c) : HasWords file (u ++ v) (w ++ w') := by
  intro before after hafter
  have hrest : ∀ c ∈ (v ++ after).head?, IsDelimiter c := by
    cases v with
    | nil => exact hafter
    | cons d v => exact hhead
  obtain ⟨ts, htiles, rfl⟩ := hu before (v ++ after) hrest
  obtain ⟨us, htiles', rfl⟩ := hv (before ++ u) after hafter
  exact ⟨ts ++ us, htiles.append htiles', List.map_append⟩

lemma blank {c : Char} (hc : Text.isBlank c = true) (h : HasWords file u w) :
    HasWords file (c :: u) w := by
  intro before after hafter
  obtain ⟨ts, htiles, hwords⟩ := h (before ++ [c]) after hafter
  exact ⟨ts, .gap (.blank hc) htiles, hwords⟩

/-- A mark needs nothing to end it, unless two slashes would come together. -/
lemma mark {m : Mark} (hm : m ≠ .slash ∨ u.head? ≠ some '/') (h : HasWords file u w) :
    HasWords file (m.char :: u) (.mark m :: w) := by
  intro before after hafter
  obtain ⟨ts, htiles, hwords⟩ := h (before ++ [m.char]) after hafter
  have hslash : m = .slash → (u ++ after).head? ≠ some '/' := by
    intro hm' hhead
    cases u with
    | nil => exact (hafter '/' hhead).ne_slash rfl
    | cons d u => exact hm.elim (· hm') (· hhead)
  exact ⟨_, .lexeme (.mark hslash) htiles, by simp [hwords]⟩

/-- A mark that ends a text. -/
lemma append_mark {m : Mark} (hm : m ≠ .slash) (h : HasWords file u w) :
    HasWords file (u ++ [m.char]) (w ++ [.mark m]) := by
  refine h.append (mark (.inl hm) nil) ?_
  rintro c ⟨⟩
  exact .of_mark hm

end HasWords

/-! ### Expressions -/

/-- A text is the given word and nothing else. -/
def IsWordFor (file text : String) (word : Lexeme) : Prop :=
  ∃ location, scan file text = .ok [⟨word, location⟩]

/-- An expression in which nothing is missing, whose names are words and whose numbers, briefly
written, are read as the same numbers. -/
inductive Node.IsRereadable (file : String) : Node → Prop
  | constant {v : Binary64} {location : Option Location} (h : IsWordFor file v.brief (.number v)) :
      IsRereadable file (.constant v location)
  | symbol {x : String} {location : Option Location} (h : IsWordFor file x (.identifier x)) :
      IsRereadable file (.symbol x location)
  | binary {op : Op} {l r : Node} {location : Option Location} (hl : IsRereadable file l)
      (hr : IsRereadable file r) : IsRereadable file (.binary (some op) l r location)
  | negation {e : Node} {location : Option Location} (h : IsRereadable file e) :
      IsRereadable file (.unary (some .sub) e location)
  | call {f : String} {es : List Node} {location : Option Location}
      (hf : IsWordFor file f (.identifier f)) (hes : ∀ e ∈ es, IsRereadable file e) :
      IsRereadable file (.call f es location)

lemma HasWords.of_isWordFor {file text : String} {word : Lexeme} (h : IsWordFor file text word) :
    HasWords file text.toList [word] := by
  obtain ⟨location, hscan⟩ := h
  exact .of_scan hscan

/-- The sign of an operator is the mark that stands for it. -/
lemma Op.exists_mark (op : Op) : ∃ m : Mark, m.char = op.sign ∧ m.op? = some op := by
  cases op with
  | add => exact ⟨.plus, rfl, rfl⟩
  | sub => exact ⟨.minus, rfl, rfl⟩
  | mul => exact ⟨.star, rfl, rfl⟩
  | div => exact ⟨.slash, rfl, rfl⟩

namespace Node

variable {file : String} {l r e : Node} {es : List Node}

/-- The text of an expression has words that are derived as the expression. -/
def WrittenAs (file : String) (e : Node) : Prop :=
  ∃ w, HasWords file e.text.toList w ∧ Derives w (.atom e.bare)

lemma WrittenAs.binary {op : Op} {location : Option Location} (hl : l.WrittenAs file)
    (hr : r.WrittenAs file) : (Node.binary (some op) l r location).WrittenAs file := by
  obtain ⟨u, hu, hderives⟩ := hl
  obtain ⟨v, hv, hderives'⟩ := hr
  obtain ⟨m, hsign, hop⟩ := op.exists_mark
  have hblank : Text.isBlank ' ' = true := by decide +kernel
  have htext : (Node.binary (some op) l r location).text.toList =
      '(' :: (l.text.toList ++ ' ' :: m.char :: ' ' :: (r.text.toList ++ [')'])) := by
    simp [text, signText, hsign]
  refine ⟨.mark .openParen :: (u ++ .mark m :: (v ++ [.mark .closeParen])), ?_, ?_⟩
  · rw [htext]
    have hright : HasWords file (' ' :: m.char :: ' ' :: (r.text.toList ++ [')']))
        (.mark m :: (v ++ [.mark .closeParen])) :=
      .blank hblank (.mark (.inr (by simp))
        (.blank hblank (hv.append_mark (m := .closeParen) (by decide))))
    refine .mark (m := .openParen) (.inl (by decide)) (hu.append hright ?_)
    rintro c ⟨⟩
    exact .of_isBlank hblank
  · have hsum : Derives (u ++ .mark m :: v) (.level 0 (.binary (some op) l.bare r.bare none)) := by
      refine .level_mono (Int.le_of_lt op.leftPower_pos) (.operation hop ?_ ?_)
      · exact Derives.level_of_unary (.atom hderives) _
      · exact Derives.level_of_unary (.atom hderives') _
    simpa [bare] using Derives.group hsum

lemma WrittenAs.negation {location : Option Location} (h : e.WrittenAs file) :
    (Node.unary (some .sub) e location).WrittenAs file := by
  obtain ⟨w, hw, hderives⟩ := h
  have htext : (Node.unary (some .sub) e location).text.toList =
      '(' :: '-' :: (e.text.toList ++ [')']) := by
    simp [text, signText, Op.sign]
  refine ⟨.mark .openParen :: (.mark .minus :: w ++ [.mark .closeParen]), ?_, ?_⟩
  · rw [htext]
    exact .mark (m := .openParen) (.inl (by decide)) (.mark (m := .minus) (.inl (by decide))
      (hw.append_mark (m := .closeParen) (by decide)))
  · exact .group (.product (.unary (.negation (.atom hderives))))

/-- The texts of arguments with commas between them. -/
lemma exists_words_arguments (hes : es ≠ []) (h : ∀ e ∈ es, e.WrittenAs file) :
    ∃ w, HasWords file (", ".intercalate (texts es)).toList w ∧
      Derives w (.arguments (bareAll es)) := by
  induction es with
  | nil => exact absurd rfl hes
  | cons e es ih =>
    obtain ⟨u, hu, hderives⟩ := h e List.mem_cons_self
    have hsum : Derives u (.sum e.bare) := .product (.unary (.atom hderives))
    cases es with
    | nil => exact ⟨u, by simpa [texts] using hu, .lastArgument hsum⟩
    | cons e' es =>
      obtain ⟨v, hv, hderives'⟩ := ih (by simp) fun d hd => h d (List.mem_cons_of_mem _ hd)
      have htext : (", ".intercalate (texts (e :: e' :: es))).toList =
          e.text.toList ++ ',' :: ' ' :: (", ".intercalate (texts (e' :: es))).toList := by
        rw [texts, texts, String.intercalate_cons_cons]
        simp
      refine ⟨u ++ .mark .comma :: v, ?_, .argument hsum hderives'⟩
      rw [htext]
      refine hu.append (.mark (m := .comma) (.inl (by decide)) (.blank (by decide +kernel) hv)) ?_
      rintro c ⟨⟩
      exact .of_mark (m := .comma) (by decide)

lemma WrittenAs.call {f : String} {location : Option Location}
    (hf : IsWordFor file f (.identifier f)) (hes : ∀ e ∈ es, e.WrittenAs file) :
    (Node.call f es location).WrittenAs file := by
  have htext : (Node.call f es location).text.toList =
      f.toList ++ '(' :: ((", ".intercalate (texts es)).toList ++ [')']) := by
    simp [text]
  -- the parenthesis ends the name, whatever comes after it
  have hname : ∀ {v w}, HasWords file v w →
      HasWords file (f.toList ++ '(' :: v) (.identifier f :: .mark .openParen :: w) := by
    intro v w hv
    refine HasWords.append (.of_isWordFor hf) (.mark (m := .openParen) (.inl (by decide)) hv) ?_
    rintro c ⟨⟩
    exact .of_mark (m := .openParen) (by decide)
  rw [WrittenAs, htext]
  cases es with
  | nil =>
    exact ⟨_, hname (.mark (m := .closeParen) (.inl (by decide)) .nil), .emptyCall⟩
  | cons e es =>
    obtain ⟨w, hw, hderives⟩ := exists_words_arguments (by simp) hes
    exact ⟨_, hname (hw.append_mark (m := .closeParen) (by decide)), .call hderives⟩

lemma IsRereadable.writtenAs (h : e.IsRereadable file) : e.WrittenAs file := by
  induction h with
  | constant h => exact ⟨_, .of_isWordFor h, .number⟩
  | symbol h => exact ⟨_, .of_isWordFor h, .name⟩
  | binary hl hr ihl ihr => exact .binary ihl ihr
  | negation h ih => exact .negation ih
  | call hf hes ih => exact .call hf ih

end Node

/-! ### Reading -/

/-- A sum is read to the end of its tokens. -/
lemma Derives.exists_readExpression {ts : List Token} {e : Node}
    (h : Derives (ts.map (·.lexeme)) (.sum e)) :
    ∃ e', readExpression 0 ts = .ok (e', []) ∧ e'.bare = e := by
  have hslot : slotPower 0 [] ≤ 0 := Int.le_refl 0
  obtain ⟨q, operand, below, e', hreads, hq, he', hclose⟩ := (h.isRead 0).closeOperators rfl hslot
  refine ⟨e', ?_, he'⟩
  have hread := hreads.read []
  rw [List.append_nil] at hread
  rw [readExpression, Progress.start, hread, Progress.read, Progress.finish_of_operand? hq,
    Progress.finishReached, hclose]
  rfl

/-- An expression that is written down is read as the same expression, places set aside, and nothing
is left over. -/
theorem exists_readExpression_text (file : String) (e : Node) (h : e.IsRereadable file) :
    ∃ tokens e', scan file e.text = .ok tokens ∧ readExpression 0 tokens = .ok (e', []) ∧
      e'.bare = e.bare := by
  obtain ⟨w, hwords, hderives⟩ := h.writtenAs
  obtain ⟨tokens, htiles, rfl⟩ := hwords [] [] (by simp)
  obtain ⟨e', hread, he'⟩ := (Derives.product (.unary (.atom hderives))).exists_readExpression
  exact ⟨tokens, e', htiles.scan, hread, he'⟩

/-- The expression `f(x, 1.5) / -y`. -/
def sampleQuotient : Node :=
  .binary (some .div)
    (.call "f" [.symbol "x" none, .constant (.ofRatio false 3 2) none] none)
    (.unary (some .sub) (.symbol "y" none) none) none

theorem exists_readExpression_text_quotient :
    sampleQuotient.text = "(f(x, 1.5) / (-y))" ∧
      ∃ tokens e', scan "" sampleQuotient.text = .ok tokens ∧
        readExpression 0 tokens = .ok (e', []) ∧ e'.bare = sampleQuotient.bare := by
  have hword : ∀ name ∈ ["f", "x", "y"], IsWordFor "" name (.identifier name) := by
    intro name hname
    refine ⟨some ⟨"", 1, 1⟩, ?_⟩
    revert name
    decide +kernel
  have hnumber : IsWordFor "" (Binary64.ofRatio false 3 2).brief (.number (.ofRatio false 3 2)) :=
    ⟨some ⟨"", 1, 1⟩, by decide +kernel⟩
  have hquotient : sampleQuotient.IsRereadable "" := by
    refine .binary (.call (hword "f" (by decide)) ?_) (.negation (.symbol (hword "y" (by decide))))
    rintro e (_ | ⟨_, _ | ⟨_, ⟨⟩⟩⟩)
    · exact .symbol (hword "x" (by decide))
    · exact .constant hnumber
  exact ⟨by decide +kernel, exists_readExpression_text "" sampleQuotient hquotient⟩

end TinyCompiler
