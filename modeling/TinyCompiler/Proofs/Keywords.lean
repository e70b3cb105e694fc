import TinyCompiler.Proofs.Tiling

/-!
# Spellings of keywords

A word is looked up among the keywords after it has been lower-cased, and lower-casing knows the
capitals of all scripts: it may change the length of a word, it depends on the neighbours of a
sigma, and it makes a `k` of a character that is no letter of the basic alphabet. None of this makes
a keyword of a word that is not spelled like one. The words that are read as a keyword are those of
its length that agree with it once `A` to `Z` have been replaced by `a` to `z`, and every other word
is read as the name that is written (`exists_next_of_isWord`).

What carries this is that a character outside the basic alphabet always leaves something in the
lower-cased word that no keyword holds (`exists_mem_lowered`).
-/

namespace TinyCompiler

namespace Text

/-! ### Small forms -/

/-- A code point stays as it is, or one of the runs shifts it. -/
lemma smallForm_cases (runs : List CapitalRun) (n : Nat) :
    smallForm runs n = n ∨
      ∃ run ∈ runs, run.has n = true ∧ smallForm runs n = (n + run.shift).toNat := by
  induction runs with
  | nil => exact .inl rfl
  | cons run runs ih =>
    rw [smallForm]
    split
    · exact .inl rfl
    · split
      next hhas => exact .inr ⟨run, List.mem_cons_self, hhas, rfl⟩
      next =>
        rcases ih with hsame | ⟨run', hrun', hhas, hshift⟩
        · exact .inl hsame
        · exact .inr ⟨run', List.mem_cons_of_mem _ hrun', hhas, hshift⟩

/-- The runs outside the basic alphabet lead to small forms outside of it, with one exception: the
sign of the kelvin becomes a `k`. -/
lemma capitalRuns_apart : ∀ run ∈ capitalRuns,
    run.last < 128 ∨ 128 ≤ run.first + run.shift ∨
      run.first = run.last ∧ run.first + run.shift = 'k'.toNat := by
  decide +kernel

lemma smallForm_of_le {n : Nat} (h : 128 ≤ n) :
    128 ≤ smallForm capitalRuns n ∨ smallForm capitalRuns n = 'k'.toNat := by
  rcases smallForm_cases capitalRuns n with hsame | ⟨run, hrun, hhas, hshift⟩
  · rw [hsame]
    exact .inl h
  · simp only [CapitalRun.has, Bool.and_eq_true, decide_eq_true_eq] at hhas
    rcases capitalRuns_apart run hrun with hlast | hfirst | ⟨hsingle, hk⟩
    · omega
    · omega
    · have hn : n = run.first := by omega
      rw [hshift, hn, hk]
      exact .inr rfl

/-! ### Letters of keywords -/

/-- A character of the basic alphabet other than `k`, as all characters of keywords are. -/
def IsKeywordLetter (c : Char) : Prop := 0 < c.toNat ∧ c.toNat < 128 ∧ c ≠ 'k'

instance (c : Char) : Decidable (IsKeywordLetter c) :=
  inferInstanceAs (Decidable (_ ∧ _ ∧ _))

variable {c : Char} {before rest text letters : List Char}

/-- In the basic alphabet lower-casing replaces `A` to `Z` and nothing else. -/
lemma lowerChar_of_lt (h : c.toNat < 128) : lowerChar c = [c.toLower] := by
  have hall : ∀ n < 128, lowerChar (Char.ofNat n) = [(Char.ofNat n).toLower] := by decide +kernel
  simpa using hall c.toNat h

lemma toLower_of_le (h : 128 ≤ c.toNat) : c.toLower = c := by
  have hnot : ¬ (c.val ≥ 'A'.val ∧ c.val ≤ 'Z'.val) := by
    rintro ⟨-, hle⟩
    have hle : c.toNat ≤ 90 := hle
    omega
  exact dif_neg hnot

/-- A number that is no code point stands for the null character. -/
lemma toNat_ofNat_cases (n : Nat) : (Char.ofNat n).toNat = n ∨ (Char.ofNat n).toNat = 0 := by
  by_cases hvalid : n.isValidChar
  · exact .inl (congrArg Char.toNat (dif_pos hvalid))
  · exact .inr (congrArg Char.toNat (dif_neg hvalid))

lemma exists_mem_lowerChar (h : 128 ≤ c.toNat) :
    ∃ d ∈ lowerChar c, ¬ IsKeywordLetter d := by
  by_cases hdotted : c = dottedCapital
  · refine ⟨Char.ofNat 0x307, ?_, by decide +kernel⟩
    simp [lowerChar, hdotted]
  · refine ⟨Char.ofNat (smallForm capitalRuns c.toNat), ?_, ?_⟩
    · simp [lowerChar, hdotted]
    · rintro ⟨hpos, hlt, hk⟩
      rcases toNat_ofNat_cases (smallForm capitalRuns c.toNat) with hsmall | hzero
      · rcases smallForm_of_le h with hle | hkelvin
        · omega
        · rw [hkelvin, Char.ofNat_toNat] at hk
          exact hk rfl
      · omega

/-- What a character becomes, given its neighbours. -/
def lowered (before : List Char) (c : Char) (rest : List Char) : List Char :=
  if c = 'Σ' then [if endsWord before rest then 'ς' else 'σ'] else lowerChar c

lemma lowerAfter_cons (before : List Char) (c : Char) (rest : List Char) :
    lowerAfter before (c :: rest) = lowered before c rest ++ lowerAfter (c :: before) rest := rfl

lemma lowered_of_lt (h : c.toNat < 128) : lowered before c rest = [c.toLower] := by
  have hsigma : c ≠ 'Σ' := by
    rintro rfl
    exact absurd h (by decide)
  rw [lowered, if_neg hsigma, lowerChar_of_lt h]

/-- A character outside the basic alphabet leaves something that no keyword holds. -/
lemma exists_mem_lowered (h : 128 ≤ c.toNat) :
    ∃ d ∈ lowered before c rest, ¬ IsKeywordLetter d := by
  rw [lowered]
  split
  next =>
    refine ⟨_, List.mem_singleton_self _, ?_⟩
    split <;> decide +kernel
  next => exact exists_mem_lowerChar h

/-- Lower-casing leads to letters of keywords exactly where replacing `A` to `Z` does. -/
lemma lowerAfter_eq_iff (hletters : ∀ d ∈ letters, IsKeywordLetter d) :
    lowerAfter before text = letters ↔ text.map Char.toLower = letters := by
  induction text generalizing before letters with
  | nil => rfl
  | cons c text ih =>
    rw [lowerAfter_cons, List.map_cons]
    by_cases hc : c.toNat < 128
    · rw [lowered_of_lt hc, List.singleton_append]
      cases letters with
      | nil => simp
      | cons d letters =>
        rw [List.cons.injEq, List.cons.injEq,
          ih fun d' hd' => hletters d' (List.mem_cons_of_mem _ hd')]
    · have hle : 128 ≤ c.toNat := Nat.le_of_not_lt hc
      constructor
      · rintro rfl
        obtain ⟨d, hd, hnot⟩ := exists_mem_lowered hle
        exact absurd (hletters d (List.mem_append_left _ hd)) hnot
      · rintro rfl
        have hletter := hletters c.toLower List.mem_cons_self
        rw [toLower_of_le hle] at hletter
        exact absurd hletter.2.1 hc

end Text

/-! ### Words -/

namespace Keyword

/-- A word spells a keyword, in any mixture of small letters and capitals of the basic alphabet: it
is as long as the keyword and agrees with it once `A` to `Z` have been replaced by `a` to `z`. -/
def IsSpelledBy (k : Keyword) (word : List Char) : Prop :=
  word.length = k.text.length ∧ word.map Char.toLower = k.text.toList

instance (k : Keyword) (word : List Char) : Decidable (k.IsSpelledBy word) :=
  inferInstanceAs (Decidable (_ ∧ _))

variable {k : Keyword} {word : List Char}

lemma isKeywordLetter_of_mem (k : Keyword) : ∀ c ∈ k.text.toList, Text.IsKeywordLetter c := by
  have hall : k.text.toList.all (fun c => decide (Text.IsKeywordLetter c)) = true := by
    cases k <;> decide +kernel
  exact fun c hc => of_decide_eq_true (List.all_eq_true.mp hall c hc)

lemma isSpelledBy_iff : k.IsSpelledBy word ↔ k.text = Text.lower (String.ofList word) := by
  have hlower : Text.lower (String.ofList word) = k.text ↔
      word.map Char.toLower = k.text.toList := by
    rw [← Text.lowerAfter_eq_iff k.isKeywordLetter_of_mem, ← String.toList_inj, Text.lower,
      String.toList_ofList, String.toList_ofList]
  rw [eq_comm, hlower, IsSpelledBy]
  constructor
  · exact And.right
  · intro hmap
    refine ⟨?_, hmap⟩
    rw [← List.length_map, hmap, String.length_toList]

end Keyword

/-- A word is read as a keyword exactly if it spells the keyword, capitals and small letters of the
basic alphabet being the same, and every other word is read as a name, which is the word as it is
written. -/
theorem exists_next_of_isWord {file : String} {p : Position} {word after : List Char}
    (h : IsWord word after) :
    ∃ lexeme, (Cursor.mk file p (word ++ after)).next =
        (some (.token ⟨lexeme, some (.ofPosition file p)⟩), ⟨file, p.after word, after⟩) ∧
      (∀ k, lexeme = .keyword k ↔ k.IsSpelledBy word) ∧
      ((∀ k : Keyword, ¬ k.IsSpelledBy word) → lexeme = .identifier (String.ofList word)) := by
  refine ⟨Piece.wordLexeme word, Cursor.next_of_isLexeme (Piece.isLexeme_wordLexeme h), ?_, ?_⟩
  · intro k
    rw [Keyword.isSpelledBy_iff, ← Keyword.ofText?_eq_some_iff, Piece.wordLexeme]
    cases Keyword.ofText? (Text.lower (String.ofList word)) <;> simp
  · intro hnone
    have hnot : Keyword.ofText? (Text.lower (String.ofList word)) = none :=
      Keyword.ofText?_eq_none_iff.mpr fun k => mt Keyword.isSpelledBy_iff.mpr (hnone k)
    rw [Piece.wordLexeme, hnot]

/-- The dotted capital becomes two characters, of which the first is a plain `i`. A word with it is a
name all the same. -/
theorem exists_next_of_isWord_dottedCapital :
    IsWord ['İ', 'f'] ['(', '1', ')'] ∧ (∀ k : Keyword, ¬ k.IsSpelledBy ['İ', 'f']) ∧
      (Cursor.mk "a" .start "İf(1)".toList).next =
        (some (.token ⟨.identifier "İf", some (.ofPosition "a" .start)⟩),
          ⟨"a", Position.start.after ['İ', 'f'], ['(', '1', ')']⟩) := by
  have hword : IsWord ['İ', 'f'] ['(', '1', ')'] := by
    refine ⟨⟨'İ', ['f'], rfl, by decide +kernel, by decide +kernel⟩, ?_, ?_⟩
    · exact List.all_eq_true.mp (by decide +kernel)
    · rintro c ⟨⟩
      decide +kernel
  have hnone : ∀ k : Keyword, ¬ k.IsSpelledBy ['İ', 'f'] := by
    intro k
    cases k <;> decide
  obtain ⟨lexeme, hnext, -, hname⟩ := exists_next_of_isWord hword
  rw [hname hnone] at hnext
  exact ⟨hword, hnone, hnext⟩

-- capitals count as small letters, the long `s` is another letter, and the sign of the kelvin is
-- lower-cased to a `k`
example : Piece.wordLexeme "ReTURN".toList = .keyword .kwReturn ∧
    Piece.wordLexeme "elſe".toList = .identifier "elſe" ∧
    Piece.wordLexeme "\u212Aif".toList = .identifier "\u212Aif" := by decide +kernel

end TinyCompiler
