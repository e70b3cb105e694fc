import Mathlib.Data.List.Induction
import Mathlib.Data.List.TakeWhile
import Mathlib.Tactic.Lemma
import TinyCompiler.Token.Cursor

/-!
# Tilings of a text

What it means to cut a text into tokens, said without the order in which the cutting is done. A
text is a row of gaps and lexemes. Gaps are blanks and whole comments. A lexeme is a mark, a word or
a numeral, and it is maximal: the text that follows could not have belonged to it. Each token stands
at the line and the column that the text before it gives.

Reading a text token by token finds a tiling if there is one, and every tiling is the one that is
found (`scan_eq_ok_iff_tiles`). The text that follows a lexeme is kept in the relation
(`Tiles.lexeme`), so that tilings of two texts can be put together wherever a lexeme ends
(`Tiles.append`).
-/

namespace TinyCompiler

/-! ### Characters -/

namespace Text

variable {c : Char}

/-- Two tables have no code point in common if none of the first is in the second. -/
lemma Ranges.has_eq_false_of_has {s t : Ranges} {n : Nat} (hs : s.sortedFrom 0 = true)
    (hapart : ∀ r ∈ s, ∀ m ∈ List.range' r.1 (r.2 + 1 - r.1), t.has m = false)
    (hn : s.has n = true) : t.has n = false := by
  obtain ⟨r, hr, hlow, hhigh⟩ := (has_eq_true_iff hs).mp hn
  refine hapart r hr n (List.mem_range'_1.mpr ⟨hlow, ?_⟩)
  omega

lemma isLetter_eq_false_of_isBlank (h : isBlank c = true) : isLetter c = false :=
  Ranges.has_eq_false_of_has blankRanges_sorted (by decide +kernel) h

lemma isNumeric_eq_false_of_isBlank (h : isBlank c = true) : isNumeric c = false :=
  Ranges.has_eq_false_of_has blankRanges_sorted (by decide +kernel) h

/-- A blank is no part of a word. -/
lemma continuesWord_eq_false_of_isBlank (h : isBlank c = true) : continuesWord c = false := by
  have hunderscore : (c == '_') = false := by
    rw [beq_eq_false_iff_ne]
    rintro rfl
    exact absurd h (by decide +kernel)
  simp [continuesWord, isLetter_eq_false_of_isBlank h, isNumeric_eq_false_of_isBlank h, hunderscore]

lemma isBlank_eq_false_of_continuesWord (h : continuesWord c = true) : isBlank c = false := by
  by_contra hblank
  rw [Bool.not_eq_false] at hblank
  rw [continuesWord_eq_false_of_isBlank hblank] at h
  cases h

lemma continuesWord_of_isNumeric (h : isNumeric c = true) : continuesWord c = true := by
  simp [continuesWord, h]

end Text

namespace Mark

variable {m : Mark} {c : Char}

/-- A mark is neither blank nor part of a numeral or a word. -/
lemma isBlank_char (m : Mark) : Text.isBlank m.char = false := by
  cases m <;> decide +kernel

lemma continuesWord_char (m : Mark) : Text.continuesWord m.char = false := by
  cases m <;> decide +kernel

lemma isNumeric_char (m : Mark) : Text.isNumeric m.char = false := by
  by_contra h
  rw [Bool.not_eq_false] at h
  have := Text.continuesWord_of_isNumeric h
  rw [continuesWord_char] at this
  cases this

lemma startsWord_char (m : Mark) : Text.startsWord m.char = false := by
  by_contra h
  rw [Bool.not_eq_false] at h
  have := Text.continuesWord_of_startsWord h
  rw [continuesWord_char] at this
  cases this

lemma ofChar?_eq_some_iff : ofChar? c = some m ↔ m.char = c := by
  constructor
  · intro h
    simpa using List.find?_some h
  · rintro rfl
    cases m <;> decide

end Mark

namespace Keyword

variable {k : Keyword} {text : String}

lemma ofText?_eq_some_iff : ofText? text = some k ↔ k.text = text := by
  constructor
  · intro h
    simpa using List.find?_some h
  · rintro rfl
    cases k <;> decide

lemma ofText?_eq_none_iff : ofText? text = none ↔ ∀ k : Keyword, k.text ≠ text := by
  rw [Option.eq_none_iff_forall_ne_some]
  exact forall_congr' fun k => not_congr ofText?_eq_some_iff

end Keyword

/-! ### Gaps and lexemes -/

/-- A blank, or a comment with the line feed that ends it. -/
inductive IsGap : List Char → Prop
  | blank {c : Char} (h : Text.isBlank c = true) : IsGap [c]
  | comment {body : List Char} (h : '\n' ∉ body) : IsGap ('/' :: '/' :: (body ++ ['\n']))

/-- A word, given the text after it: no numeric character comes first, and no character follows that
could belong to it. -/
structure IsWord (word after : List Char) : Prop where
  starts : ∃ c rest, word = c :: rest ∧ Text.isNumeric c = false ∧ Text.startsWord c = true
  continues : ∀ c ∈ word, Text.continuesWord c = true
  ends : ∀ c ∈ after.head?, Text.continuesWord c = false

/-- A numeral that is as long as it can be, given the text after it. There may be nothing after its
point. -/
structure Numeral.IsMaximal (n : Numeral) (after : List Char) : Prop where
  whole_ne_nil : n.whole ≠ []
  whole_numeric : ∀ c ∈ n.whole, Text.isNumeric c = true
  places_numeric : ∀ places ∈ n.places, ∀ c ∈ places, Text.isNumeric c = true
  ends : ∀ c ∈ after.head?, Text.isNumeric c = false
  ends_at_point : n.places = none → after.head? ≠ some '.'

/-- Characters are a lexeme, given the text after them. -/
inductive IsLexeme : (word after : List Char) → Lexeme → Prop
  /-- A mark. What looks like two slashes is no mark but begins a comment. -/
  | mark {m : Mark} {after : List Char} (h : m = .slash → after.head? ≠ some '/') :
      IsLexeme [m.char] after (.mark m)
  | keyword {k : Keyword} {word after : List Char} (hword : IsWord word after)
      (hk : k.text = Text.lower (String.ofList word)) : IsLexeme word after (.keyword k)
  | name {word after : List Char} (hword : IsWord word after)
      (hname : ∀ k : Keyword, k.text ≠ Text.lower (String.ofList word)) :
      IsLexeme word after (.identifier (String.ofList word))
  | number {n : Numeral} {v : Binary64} {after : List Char} (hn : n.IsMaximal after)
      (hv : n.value? = some v) : IsLexeme n.text after (.number v)

/-- The place after a text: one line more than there are line feeds, and one column more than there
are characters after the last of them. -/
def Location.after (file : String) (before : List Char) : Location :=
  ⟨file, 1 + before.count '\n', 1 + (before.reverse.takeWhile (· != '\n')).length⟩

/-- The text between `before` and `after` is a row of gaps and lexemes, the lexemes being those of
the tokens, which stand where the lexemes begin. -/
inductive Tiles (file : String) : (before text after : List Char) → List Token → Prop
  | nil {before after : List Char} : Tiles file before [] after []
  | gap {before gap text after : List Char} {tokens : List Token} (hgap : IsGap gap)
      (hrest : Tiles file (before ++ gap) text after tokens) :
      Tiles file before (gap ++ text) after tokens
  | lexeme {before word text after : List Char} {lexeme : Lexeme} {tokens : List Token}
      (hword : IsLexeme word (text ++ after) lexeme)
      (hrest : Tiles file (before ++ word) text after tokens) :
      Tiles file before (word ++ text) after
        (⟨lexeme, some (Location.after file before)⟩ :: tokens)

lemma IsGap.ne_nil {gap : List Char} (h : IsGap gap) : gap ≠ [] := by
  cases h <;> simp

lemma IsLexeme.ne_nil {word after : List Char} {lexeme : Lexeme} (h : IsLexeme word after lexeme) :
    word ≠ [] := by
  cases h with
  | mark => simp
  | keyword hword | name hword =>
    obtain ⟨c, rest, rfl, -⟩ := hword.starts
    simp
  | @number n _ _ hn =>
    rw [Numeral.text]
    split <;> simp [hn.whole_ne_nil]

/-! ### Delimiters -/

/-- A character that goes on with no lexeme. -/
structure IsDelimiter (c : Char) : Prop where
  continuesWord : Text.continuesWord c = false
  ne_point : c ≠ '.'
  ne_slash : c ≠ '/'

lemma IsDelimiter.isNumeric {c : Char} (h : IsDelimiter c) : Text.isNumeric c = false := by
  by_contra hnumeric
  rw [Bool.not_eq_false] at hnumeric
  have := Text.continuesWord_of_isNumeric hnumeric
  rw [h.continuesWord] at this
  cases this

lemma IsDelimiter.of_isBlank {c : Char} (h : Text.isBlank c = true) : IsDelimiter c := by
  refine ⟨Text.continuesWord_eq_false_of_isBlank h, ?_, ?_⟩
  · rintro rfl
    exact absurd h (by decide +kernel)
  · rintro rfl
    exact absurd h (by decide +kernel)

lemma IsDelimiter.of_mark {m : Mark} (h : m ≠ .slash) : IsDelimiter m.char := by
  refine ⟨m.continuesWord_char, ?_, ?_⟩
  · cases m <;> decide
  · cases m <;> first | decide | exact absurd rfl h

/-- Only the first character after a lexeme matters to it, and not even that if it is a
delimiter. -/
lemma IsLexeme.of_head? {word after after' : List Char} {lexeme : Lexeme}
    (h : IsLexeme word after lexeme)
    (hhead : ∀ c ∈ after'.head?, after.head? = some c ∨ IsDelimiter c) :
    IsLexeme word after' lexeme := by
  have hword : IsWord word after → IsWord word after' := by
    intro hword
    refine ⟨hword.starts, hword.continues, fun c hc => ?_⟩
    rcases hhead c hc with hc | hc
    · exact hword.ends c hc
    · exact hc.continuesWord
  cases h with
  | mark hslash =>
    refine .mark fun hm hafter => ?_
    rcases hhead '/' hafter with hc | hc
    · exact hslash hm hc
    · exact hc.ne_slash rfl
  | keyword h hk => exact .keyword (hword h) hk
  | name h hname => exact .name (hword h) hname
  | number hn hv =>
    refine .number ⟨hn.whole_ne_nil, hn.whole_numeric, hn.places_numeric, fun c hc => ?_,
      fun hplaces hafter => ?_⟩ hv
    · rcases hhead c hc with hc | hc
      · exact hn.ends c hc
      · exact hc.isNumeric
    · rcases hhead '.' hafter with hc | hc
      · exact hn.ends_at_point hplaces hc
      · exact hc.ne_point rfl

/-! ### Runs of characters -/

section Runs

variable {p : Char → Bool} {xs ys : List Char}

/-- A run ends before the first character that does not belong to it. -/
lemma takeWhile_run (hxs : ∀ c ∈ xs, p c = true) (hys : ∀ c ∈ ys.head?, p c = false) :
    (xs ++ ys).takeWhile p = xs := by
  rw [List.takeWhile_append_of_pos hxs]
  cases ys with
  | nil => simp
  | cons y ys =>
    have hy : ¬ p y = true := by simp [hys y rfl]
    rw [List.takeWhile_cons_of_neg hy, List.append_nil]

lemma dropWhile_run (hxs : ∀ c ∈ xs, p c = true) (hys : ∀ c ∈ ys.head?, p c = false) :
    (xs ++ ys).dropWhile p = ys := by
  rw [List.dropWhile_append_of_pos hxs]
  cases ys with
  | nil => rfl
  | cons y ys =>
    have hy : ¬ p y = true := by simp [hys y rfl]
    rw [List.dropWhile_cons_of_neg hy]

lemma head?_dropWhile_eq_false (p : Char → Bool) (cs : List Char) :
    ∀ c ∈ (cs.dropWhile p).head?, p c = false := by
  intro c hc
  have := List.head?_dropWhile_not p cs
  rw [Option.mem_def.mp hc] at this
  simpa using this

end Runs

/-! ### The first piece of a text -/

namespace Piece

variable {c : Char} {cs word gap rest : List Char} {lexeme : Lexeme} {n : Numeral}

/-- The numeral at the start of a text is the maximal one. -/
lemma splitNumeral_isMaximal (cs : List Char) (h : Text.isNumeric c = true) :
    (splitNumeral (c :: cs)).1.IsMaximal (splitNumeral (c :: cs)).2 := by
  have hne : (c :: cs).takeWhile Text.isNumeric ≠ [] := by
    rw [List.takeWhile_cons_of_pos h]
    simp
  have hall : ∀ d ∈ (c :: cs).takeWhile Text.isNumeric, Text.isNumeric d = true :=
    fun d hd => List.mem_takeWhile_imp hd
  have hend : ∀ d ∈ ((c :: cs).dropWhile Text.isNumeric).head?, Text.isNumeric d = false :=
    head?_dropWhile_eq_false _ _
  unfold splitNumeral
  split
  next rest hrest =>
    refine ⟨hne, hall, ?_, head?_dropWhile_eq_false _ rest, by simp⟩
    rintro places ⟨⟩ d hd
    exact List.mem_takeWhile_imp hd
  next rest hpoint =>
    refine ⟨hne, hall, by simp, hend, fun _ hhead => ?_⟩
    obtain ⟨tail, htail⟩ := List.head?_eq_some_iff.mp hhead
    exact hpoint tail htail

lemma splitNumeral_of_isMaximal (h : n.IsMaximal rest) :
    splitNumeral (n.text ++ rest) = (n, rest) := by
  obtain ⟨whole, places⟩ := n
  unfold splitNumeral
  cases places with
  | none =>
    have htake := takeWhile_run h.whole_numeric h.ends
    have hdrop := dropWhile_run h.whole_numeric h.ends
    simp only [Numeral.text]
    rw [htake, hdrop]
    split
    next tail => exact absurd rfl (h.ends_at_point rfl)
    next => rfl
  | some places =>
    have hpoint : ∀ d ∈ ('.' :: (places ++ rest)).head?, Text.isNumeric d = false := by
      rintro d ⟨⟩
      decide +kernel
    have htake := takeWhile_run h.whole_numeric hpoint
    have hdrop := dropWhile_run h.whole_numeric hpoint
    have hplaces := h.places_numeric places rfl
    simp only [Numeral.text, List.append_assoc, List.cons_append]
    rw [htake, hdrop]
    simp only [takeWhile_run hplaces h.ends, dropWhile_run hplaces h.ends]

/-- Characters that are a word are its lexeme. -/
lemma isLexeme_wordLexeme (h : IsWord word rest) : IsLexeme word rest (wordLexeme word) := by
  cases hk : Keyword.ofText? (Text.lower (String.ofList word)) with
  | some k =>
    rw [wordLexeme, hk]
    exact .keyword h (Keyword.ofText?_eq_some_iff.mp hk)
  | none =>
    rw [wordLexeme, hk]
    exact .name h (Keyword.ofText?_eq_none_iff.mp hk)

/-- A word that comes first is the first piece, and what follows it does not begin with a character
that could belong to it. -/
lemma isLexeme_of_split (h : split c cs = (.word word lexeme, rest)) :
    IsLexeme word rest lexeme := by
  unfold split at h
  split at h
  · cases h
  · split at h
    next hnumeric =>
      have hmaximal := splitNumeral_isMaximal cs hnumeric
      generalize splitNumeral (c :: cs) = r at h hmaximal
      obtain ⟨n, after⟩ := r
      obtain ⟨hpiece, rfl⟩ := Prod.mk.inj h
      rw [ofNumeral] at hpiece
      split at hpiece
      next v hv =>
        cases hpiece
        exact .number hmaximal hv
      next => cases hpiece
    next hnumeric =>
      split at h
      next hstarts =>
        cases h
        refine isLexeme_wordLexeme ⟨?_, fun d hd => List.mem_takeWhile_imp hd,
          head?_dropWhile_eq_false _ _⟩
        rw [List.takeWhile_cons_of_pos (Text.continuesWord_of_startsWord hstarts)]
        exact ⟨c, _, rfl, by simpa using hnumeric, hstarts⟩
      next hstarts =>
        split at h
        next tail =>
          unfold splitComment at h
          split at h <;> cases h
        next hslashes =>
          obtain ⟨hpiece, rfl⟩ := Prod.mk.inj h
          rw [single] at hpiece
          split at hpiece
          next m hm =>
            obtain rfl := Mark.ofChar?_eq_some_iff.mp hm
            cases hpiece
            refine .mark ?_
            rintro rfl hhead
            obtain ⟨tail, htail⟩ := List.head?_eq_some_iff.mp hhead
            exact hslashes tail rfl htail
          next => cases hpiece

/-- A gap that comes first is a blank or a whole comment. -/
lemma isGap_of_split (h : split c cs = (.gap gap, rest)) : IsGap gap := by
  unfold split at h
  split at h
  next hblank =>
    cases h
    exact .blank hblank
  next =>
    split at h
    · rw [Prod.mk.injEq, ofNumeral] at h
      split at h <;> cases h.1
    · split at h
      · cases h
      · split at h
        next tail _ _ _ =>
          unfold splitComment at h
          split at h
          next => cases h
          next lineEnd after hdrop =>
            cases h
            -- what stopped the comment is a line feed
            have hline : lineEnd = '\n' := by
              have := head?_dropWhile_eq_false (· != '\n') tail lineEnd
              rw [hdrop] at this
              simpa using this rfl
            rw [hline]
            refine .comment fun hmem => ?_
            simpa using List.mem_takeWhile_imp hmem
        next =>
          rw [Prod.mk.injEq, single] at h
          split at h <;> cases h.1

lemma split_of_isNumeric (h : Text.isNumeric c = true) :
    split c cs = (ofNumeral (splitNumeral (c :: cs)).1, (splitNumeral (c :: cs)).2) := by
  have hblank := Text.isBlank_eq_false_of_continuesWord (Text.continuesWord_of_isNumeric h)
  simp [split, hblank, h]

lemma split_of_isWord (h : IsWord word rest) (hcs : word ++ rest = c :: cs) :
    split c cs = (.word word (wordLexeme word), rest) := by
  obtain ⟨d, tail, hword, hnumeric, hstarts⟩ := h.starts
  obtain rfl : d = c := by
    rw [hword] at hcs
    exact (List.cons.inj hcs).1
  have hblank := Text.isBlank_eq_false_of_continuesWord (Text.continuesWord_of_startsWord hstarts)
  simp only [split, hblank, hnumeric, hstarts, Bool.false_eq_true, if_false, if_true]
  rw [← hcs, takeWhile_run h.continues h.ends, dropWhile_run h.continues h.ends]

lemma split_of_mark {m : Mark} (h : m = .slash → cs.head? ≠ some '/') :
    split m.char cs = (.word [m.char] (.mark m), cs) := by
  have hsingle : single m.char = .word [m.char] (.mark m) := by
    rw [single, Mark.ofChar?_eq_some_iff.mpr rfl]
  simp only [split, m.isBlank_char, m.isNumeric_char, m.startsWord_char, Bool.false_eq_true,
    if_false, hsingle]
  split
  next tail hslash =>
    exact absurd rfl (h (by cases m <;> first | rfl | cases hslash))
  next => rfl

/-- Where characters are a lexeme, they are the first piece. -/
lemma split_of_isLexeme (h : IsLexeme word rest lexeme) (hcs : word ++ rest = c :: cs) :
    split c cs = (.word word lexeme, rest) := by
  cases h with
  | mark hslash =>
    obtain ⟨rfl, rfl⟩ := List.cons.inj hcs
    exact split_of_mark hslash
  | keyword hword hk =>
    rw [split_of_isWord hword hcs, wordLexeme, Keyword.ofText?_eq_some_iff.mpr hk]
  | name hword hname =>
    rw [split_of_isWord hword hcs, wordLexeme, Keyword.ofText?_eq_none_iff.mpr hname]
  | @number n v _ hn hv =>
    have hnumeric : Text.isNumeric c = true := by
      obtain ⟨d, whole, hwhole⟩ := List.exists_cons_of_ne_nil hn.whole_ne_nil
      have hd := hn.whole_numeric d (by simp [hwhole])
      cases hplaces : n.places with
      | none | some => simp_all [Numeral.text]
    rw [split_of_isNumeric hnumeric, ← hcs, splitNumeral_of_isMaximal hn, ofNumeral, hv]

/-- Where a gap comes, it is the first piece. -/
lemma split_of_isGap (h : IsGap gap) (hcs : gap ++ rest = c :: cs) :
    split c cs = (.gap gap, rest) := by
  cases h with
  | blank hblank =>
    obtain ⟨rfl, rfl⟩ := List.cons.inj hcs
    simp [split, hblank]
  | @comment body hbody =>
    obtain ⟨rfl, rfl⟩ : c = '/' ∧ cs = '/' :: (body ++ '\n' :: rest) := by
      simpa [eq_comm] using hcs
    have hslash : Text.isBlank '/' = false ∧ Text.isNumeric '/' = false ∧
        Text.startsWord '/' = false :=
      ⟨Mark.isBlank_char .slash, Mark.isNumeric_char .slash, Mark.startsWord_char .slash⟩
    have hall : ∀ d ∈ body, (d != '\n') = true := by
      intro d hd
      simp only [bne_iff_ne, ne_eq]
      rintro rfl
      exact hbody hd
    have hend : ∀ d ∈ ('\n' :: rest).head?, (d != '\n') = false := by simp
    simp only [split, hslash, Bool.false_eq_true, if_false, splitComment, takeWhile_run hall hend,
      dropWhile_run hall hend]
    rfl

end Piece

/-! ### Places -/

lemma Location.ofPosition_after (file : String) (before : List Char) :
    Location.ofPosition file (Position.start.after before) = Location.after file before := by
  induction before using List.reverseRecOn with
  | nil => rfl
  | append_singleton before c ih =>
    simp only [Location.ofPosition, Location.after, Location.mk.injEq, true_and] at ih ⊢
    rw [Position.after_append, Position.after_cons, Position.after_nil, Position.advance]
    by_cases hc : c = '\n'
    · simp [hc, ih.1]
      omega
    · simp [hc, ih.1, ih.2]
      omega

/-! ### Reading on -/

namespace Cursor

variable {file : String} {p : Position} {gap word rest : List Char} {lexeme : Lexeme}

/-- Reading passes over a gap. -/
lemma next_of_isGap (h : IsGap gap) :
    (Cursor.mk file p (gap ++ rest)).next = (Cursor.mk file (p.after gap) rest).next := by
  have hne : gap ++ rest ≠ [] := List.append_ne_nil_of_left_ne_nil h.ne_nil rest
  obtain ⟨c, cs, hcs⟩ := List.exists_cons_of_ne_nil hne
  rw [hcs, next]
  simp only [Piece.split_of_isGap h hcs, past, Piece.text]

/-- Reading delivers a lexeme. -/
lemma next_of_isLexeme (h : IsLexeme word rest lexeme) :
    (Cursor.mk file p (word ++ rest)).next =
      (some (.token ⟨lexeme, some (.ofPosition file p)⟩), ⟨file, p.after word, rest⟩) := by
  have hne : word ++ rest ≠ [] := List.append_ne_nil_of_left_ne_nil h.ne_nil rest
  obtain ⟨c, cs, hcs⟩ := List.exists_cons_of_ne_nil hne
  rw [hcs, next]
  simp only [Piece.split_of_isLexeme h hcs, past, Piece.text, location]

/-- Reading on depends only on what is delivered next. -/
lemma drain_of_token {c d : Cursor} {t : Token} (h : c.next = (some (.token t), d)) :
    c.drain.1 = d.drain.1.map (t :: ·) := by
  rw [drain]
  split
  next hnext => simp [h] at hnext
  next hnext => simp [h] at hnext
  next t' d' hnext =>
    rw [h] at hnext
    cases hnext
    rfl

lemma drain_eq_of_next_eq {c d : Cursor} (h : c.next = d.next) : c.drain = d.drain := by
  rw [drain, drain, h]

end Cursor

namespace Tiles

variable {file : String} {before u v text after : List Char} {ts us tokens : List Token}

/-- Tilings of two texts, one after the other. -/
lemma append (h : Tiles file before u (v ++ after) ts) (h' : Tiles file (before ++ u) v after us) :
    Tiles file before (u ++ v) after (ts ++ us) := by
  generalize hafter : v ++ after = rest at h
  induction h with
  | nil => simpa using h'
  | gap hgap hrest ih =>
    rw [List.append_assoc]
    exact .gap hgap (ih (by simpa using h') hafter)
  | lexeme hword hrest ih =>
    subst hafter
    rw [List.append_assoc]
    exact .lexeme (by simpa using hword) (ih (by simpa using h') rfl)

/-- A tiling of a whole text is a tiling wherever a delimiter follows the text. -/
lemma of_delimiter (h : Tiles file before text [] tokens)
    (hafter : ∀ c ∈ after.head?, IsDelimiter c) : Tiles file before text after tokens := by
  generalize hnil : [] = rest at h
  induction h with
  | nil => exact .nil
  | gap hgap hrest ih => exact .gap hgap (ih hnil)
  | @lexeme before word text rest lexeme tokens hword hrest ih =>
    subst hnil
    refine .lexeme (hword.of_head? fun c hc => ?_) (ih rfl)
    cases text with
    | nil => exact .inr (hafter c hc)
    | cons d text => exact .inl hc

/-- The tokens of a tiling are read, and reading goes on after them. -/
lemma drain (h : Tiles file before text after tokens) :
    (Cursor.mk file (Position.start.after before) (text ++ after)).drain.1 =
      (Cursor.mk file (Position.start.after (before ++ text)) after).drain.1.map (tokens ++ ·) := by
  induction h with
  | @nil before after =>
    rw [List.append_nil, List.nil_append]
    cases (Cursor.mk file (Position.start.after before) after).drain.1 <;> rfl
  | gap hgap hrest ih =>
    rw [List.append_assoc, Cursor.drain_eq_of_next_eq (Cursor.next_of_isGap hgap),
      ← Position.after_append, ih, List.append_assoc]
  | @lexeme before word text after lexeme tokens hword hrest ih =>
    rw [List.append_assoc, Cursor.drain_of_token (Cursor.next_of_isLexeme hword),
      ← Position.after_append, ih, List.append_assoc, Location.ofPosition_after]
    cases (Cursor.mk file (Position.start.after (before ++ (word ++ text))) after).drain.1 <;> rfl

end Tiles

namespace Cursor

variable {c d : Cursor} {before : List Char} {t : Token} {tokens : List Token}

/-- A token that is delivered stands after some gaps. -/
lemma exists_tiles_of_next (h : c.next = (some (.token t), d)) :
    ∀ before, c.position = Position.start.after before →
      ∃ text, c.rest = text ++ d.rest ∧ d.file = c.file ∧
        d.position = Position.start.after (before ++ text) ∧
        Tiles c.file before text d.rest [t] := by
  fun_induction next c with
  | case1 => simp at h
  | case2 c ch cs hrest after gap hpiece ih =>
    intro before hplace
    have hsplit : Piece.split ch cs = (.gap gap, after.rest) := Prod.ext hpiece rfl
    have hafter : after.position = Position.start.after (before ++ gap) := by
      simp [after, past, hpiece, Piece.text, hplace]
    obtain ⟨text, htext, hfile, hposition, htiles⟩ := ih h (before ++ gap) hafter
    refine ⟨gap ++ text, ?_, hfile, by simpa using hposition, ?_⟩
    · rw [hrest, ← Piece.split_append ch cs, hpiece, List.append_assoc, ← htext]
      rfl
    · exact .gap (Piece.isGap_of_split hsplit) htiles
  | case3 c ch cs hrest after word lexeme hpiece =>
    intro before hplace
    obtain ⟨hreading, rfl⟩ := Prod.mk.inj h
    obtain rfl := Reading.token.inj (Option.some.inj hreading)
    have hsplit : Piece.split ch cs = (.word word lexeme, after.rest) := Prod.ext hpiece rfl
    refine ⟨word, ?_, rfl, ?_, ?_⟩
    · rw [hrest, ← Piece.split_append ch cs, hpiece]
      rfl
    · simp [after, past, hpiece, Piece.text, hplace]
    · have hlexeme : Tiles c.file before (word ++ []) after.rest
          [⟨lexeme, some (Location.after c.file before)⟩] :=
        .lexeme (Piece.isLexeme_of_split hsplit) .nil
      rw [List.append_nil, ← Location.ofPosition_after, ← hplace] at hlexeme
      exact hlexeme
  | case4 c ch cs hrest after text fault hpiece => simp at h

/-- At the end of a text only gaps are left. -/
lemma tiles_of_next_none (h : c.next = (none, d)) :
    ∀ before, Tiles c.file before c.rest [] [] := by
  fun_induction next c with
  | case1 c hrest =>
    intro before
    rw [hrest]
    exact .nil
  | case2 c ch cs hrest after gap hpiece ih =>
    intro before
    have hsplit : Piece.split ch cs = (.gap gap, after.rest) := Prod.ext hpiece rfl
    rw [hrest, ← Piece.split_append ch cs, hpiece]
    exact .gap (Piece.isGap_of_split hsplit) (ih h _)
  | case3 => simp at h
  | case4 => simp at h

/-- What is read to the end is a tiling. -/
lemma tiles_of_drain (h : c.drain.1 = .ok tokens)
    (hplace : c.position = Position.start.after before) :
    Tiles c.file before c.rest [] tokens := by
  fun_induction drain c generalizing before tokens with
  | case1 c d hnext =>
    obtain rfl := Except.ok.inj h
    exact tiles_of_next_none hnext before
  | case2 c e d hnext => cases h
  | case3 c t d hnext rest last hdrain ih =>
    cases rest with
    | error e => cases h
    | ok ts =>
      obtain rfl := Except.ok.inj h
      obtain ⟨text, htext, hfile, hposition, htiles⟩ := exists_tiles_of_next hnext before hplace
      have hrest := ih (by rw [hdrain]) hposition
      rw [htext]
      rw [hfile] at hrest
      exact Tiles.append (by simpa using htiles) hrest

end Cursor

/-- The tokens of a tiling are those of the text. -/
lemma Tiles.scan {file source : String} {tokens : List Token}
    (h : Tiles file [] source.toList [] tokens) : scan file source = .ok tokens := by
  have hdrain := h.drain
  rw [List.append_nil] at hdrain
  rw [TinyCompiler.scan, Cursor.ofText]
  refine hdrain.trans ?_
  rw [Cursor.drain, Cursor.next]
  show Except.ok (tokens ++ []) = _
  rw [List.append_nil]

lemma tiles_of_scan {file source : String} {tokens : List Token}
    (h : scan file source = .ok tokens) : Tiles file [] source.toList [] tokens :=
  Cursor.tiles_of_drain (c := .ofText file source) h rfl

/-- A text has tokens exactly if it is a row of gaps and maximal lexemes, and then they are the
lexemes in their order, each at the line and the column where it begins. -/
theorem scan_eq_ok_iff_tiles (file source : String) (tokens : List Token) :
    scan file source = .ok tokens ↔ Tiles file [] source.toList [] tokens :=
  ⟨tiles_of_scan, Tiles.scan⟩

end TinyCompiler
