import TinyCompiler.Proofs.Places

/-!
# Equal words

Lists of the same words are read alike, wherever the words stand. Words that are equal as numbers
need not be the same, for there are two zeros: their sign makes no difference to code, but a
complaint about a zero shows it. The numerals of a text have no signs, so that texts of equal words
are compiled alike, however they are spaced and commented (`alike_of_agrees`).
-/

namespace TinyCompiler

/-! ### The numbers of a text -/

namespace Binary64

lemma roundRatio_pos {num den : Nat} (hden : 0 < den) (hle : den ≤ num) :
    0 < roundRatio num den := by
  have hquotient : 0 < num / den := Nat.div_pos hle hden
  rw [roundRatio]
  split
  · exact Nat.succ_pos _
  · exact hquotient

lemma scaleRatio_pos {base : Nat} (hbase : 0 < base) (num : Nat) {den : Nat} (hden : 0 < den)
    (k : Int) : 0 < (scaleRatio base num den k).2 := by
  rw [scaleRatio]
  split
  · exact Nat.mul_pos hden (Nat.pow_pos hbase)
  · exact hden

/-- At an exponent that is not the least one, a ratio other than zero has whole digits. -/
lemma scaleRatio_le {num den : Nat} (hnum : num ≠ 0) (h : exponentFor num den ≠ leastExponent) :
    (scaleRatio 2 num den (exponentFor num den)).2 ≤
      (scaleRatio 2 num den (exponentFor num den)).1 := by
  have hexponent : exponentFor num den ≤ (Nat.log2 num : Int) - Nat.log2 den - 52 := by
    rw [exponentFor] at h ⊢
    dsimp only at h ⊢
    omega
  have hlow : 2 ^ Nat.log2 num ≤ num := Nat.log2_self_le hnum
  have hhigh : den < 2 ^ (Nat.log2 den + 1) := Nat.lt_log2_self
  generalize exponentFor num den = k at hexponent ⊢
  rw [scaleRatio]
  split
  next hk =>
    have hpower : Nat.log2 den + 1 + k.toNat ≤ Nat.log2 num := by omega
    calc den * Nat.pow 2 k.toNat ≤ 2 ^ (Nat.log2 den + 1) * 2 ^ k.toNat :=
          Nat.mul_le_mul_right _ hhigh.le
      _ = 2 ^ (Nat.log2 den + 1 + k.toNat) := (Nat.pow_add 2 _ _).symm
      _ ≤ 2 ^ Nat.log2 num := Nat.pow_le_pow_right (by decide) hpower
      _ ≤ num := hlow
  next hk =>
    have hpower : Nat.log2 den + 1 ≤ Nat.log2 num + (-k).toNat := by omega
    calc den ≤ 2 ^ (Nat.log2 den + 1) := hhigh.le
      _ ≤ 2 ^ (Nat.log2 num + (-k).toNat) := Nat.pow_le_pow_right (by decide) hpower
      _ = 2 ^ Nat.log2 num * 2 ^ (-k).toNat := Nat.pow_add 2 _ _
      _ ≤ num * Nat.pow 2 (-k).toNat := Nat.mul_le_mul_right _ hlow

/-- A number without a sign, the exponent of which is the least one if it is zero. -/
inductive IsPlain : Binary64 → Prop
  | infinite : IsPlain (.infinite false)
  | finite {significand : Nat} {exponent : Int}
      (hzero : significand = 0 → exponent = leastExponent) :
      IsPlain (.finite false significand exponent)

lemma isPlain_ofRatio (num : Nat) {den : Nat} (hden : 0 < den) :
    (ofRatio false num den).IsPlain := by
  rw [ofRatio]
  split
  next => exact .finite fun _ => rfl
  next hnum =>
    have hscaled : 0 < (scaleRatio 2 num den (exponentFor num den)).2 :=
      scaleRatio_pos (by decide) num hden _
    have hdigits : exponentFor num den ≠ leastExponent → _ := scaleRatio_le hnum
    dsimp only
    generalize exponentFor num den = k at hscaled hdigits ⊢
    by_cases hcarry :
        roundRatio (scaleRatio 2 num den k).1 (scaleRatio 2 num den k).2 = Nat.pow 2 53
    · -- rounding has carried into one bit more, so the significand is not zero
      rw [if_pos hcarry]
      dsimp only
      split
      · exact .infinite
      · exact .finite fun hzero => absurd hzero (by decide)
    · rw [if_neg hcarry]
      dsimp only
      split
      · exact .infinite
      · refine .finite fun hzero => ?_
        by_contra hk
        have := roundRatio_pos hscaled (hdigits hk)
        omega

/-- Numbers without signs are the same if they are equal as numbers. -/
lemma IsPlain.eq_of_same {v w : Binary64} (hv : v.IsPlain) (hw : w.IsPlain)
    (h : v.same w = true) : v = w := by
  cases hv with
  | infinite =>
    cases hw with
    | infinite => rfl
    | finite => cases h
  | finite hzero =>
    cases hw with
    | infinite => cases h
    | finite hzero' =>
      simp only [same, Bool.or_eq_true, Bool.and_eq_true, beq_iff_eq] at h
      rcases h with ⟨rfl, rfl⟩ | ⟨⟨-, rfl⟩, rfl⟩
      · rw [hzero rfl, hzero' rfl]
      · rfl

end Binary64

lemma Decimal.isPlain_toBinary64 (d : Decimal) : (d.toBinary64 false).IsPlain := by
  rw [toBinary64]
  split
  · exact .finite fun _ => rfl
  · split
    · exact .infinite
    · exact Binary64.isPlain_ofRatio _ (Binary64.scaleRatio_pos (by decide) _ Nat.one_pos _)

lemma Numeral.isPlain_of_value? {n : Numeral} {v : Binary64} (h : n.value? = some v) :
    v.IsPlain := by
  rw [value?] at h
  split at h
  · obtain ⟨digits, -, h⟩ := Option.bind_eq_some_iff.mp h
    rw [wholeValue?] at h
    split at h
    · cases h
    · dsimp only at h
      split at h
      · obtain rfl := Option.some.inj h
        exact Binary64.isPlain_ofRatio _ Nat.one_pos
      · cases h
  · obtain ⟨digits, -, rfl⟩ := Option.map_eq_some_iff.mp h
    exact Decimal.isPlain_toBinary64 _

/-- The numbers of a text are values of numerals. -/
lemma Tiles.isPlain {file : String} {before text after : List Char} {tokens : List Token}
    (h : Tiles file before text after tokens) :
    ∀ t ∈ tokens, ∀ v, t.lexeme = .number v → v.IsPlain := by
  induction h with
  | nil => simp
  | gap hgap hrest ih => exact ih
  | lexeme hword hrest ih =>
    intro t ht v hv
    rcases List.mem_cons.mp ht with rfl | ht
    · obtain rfl : _ = Lexeme.number v := hv
      cases hword with
      | number hn hvalue => exact Numeral.isPlain_of_value? hvalue
    · exact ih t ht v hv

/-! ### Equal words -/

/-- Two tokens hold the same word, or words that are equal as numbers. -/
def Token.Agrees (s t : Token) : Prop := s.lexeme = t.lexeme ∨ s.lexeme.same t.lexeme = true

/-- A number without the sign of a zero. -/
def Binary64.unsigned : Binary64 → Binary64
  | .finite negative significand exponent =>
    if significand = 0 then .zero else .finite negative significand exponent
  | v => v

namespace Binary64

lemma unsigned_eq_of_same {v w : Binary64} (h : v.same w = true) : v.unsigned = w.unsigned := by
  cases v with
  | nan => cases h
  | infinite s =>
    cases w with
    | infinite t => rw [eq_of_beq h]
    | nan | finite => cases h
  | finite s m e =>
    cases w with
    | finite t n k =>
      simp only [same, Bool.or_eq_true, Bool.and_eq_true, beq_iff_eq] at h
      rcases h with ⟨rfl, rfl⟩ | ⟨⟨rfl, rfl⟩, rfl⟩ <;> rfl
    | nan | infinite => cases h

lemma wholePart_zero (e : Int) : wholePart 0 e = 0 := by
  have hratio : (ratio 0 e).1 = 0 := by
    rw [ratio, scaleRatio]
    split <;> simp
  show (ratio 0 e).1 / (ratio 0 e).2 = 0
  rw [hratio, Nat.zero_div]

/-- A number is zero, with either sign. -/
def IsZero (v : Binary64) : Prop := ∃ negative exponent, v = .finite negative 0 exponent

/-- Only zeros have signs that are taken away. -/
lemma unsigned_cases (v : Binary64) : v.IsZero ∧ v.unsigned = .zero ∨ v.unsigned = v := by
  cases v with
  | nan | infinite => exact .inr rfl
  | finite s m e =>
    by_cases hm : m = 0
    · subst hm
      exact .inl ⟨⟨s, e, rfl⟩, rfl⟩
    · exact .inr (if_neg hm)

/-- The sign of a zero does not change its whole part. -/
lemma truncate_unsigned (v : Binary64) : v.unsigned.truncate = v.truncate := by
  rcases v.unsigned_cases with ⟨⟨s, e, rfl⟩, hzero⟩ | hsame
  · rw [hzero]
    simp [truncate, zero, wholePart_zero]
  · rw [hsame]

lemma eq_or_isZero_of_unsigned_eq {v w : Binary64} (h : v.unsigned = w.unsigned) :
    v = w ∨ v.IsZero ∧ w.IsZero := by
  have hzero : IsZero .zero := ⟨false, leastExponent, rfl⟩
  rcases v.unsigned_cases with ⟨hv, hv'⟩ | hv <;> rcases w.unsigned_cases with ⟨hw, hw'⟩ | hw
  · exact .inr ⟨hv, hw⟩
  · rw [hv', hw] at h
    exact .inr ⟨hv, h ▸ hzero⟩
  · rw [hv, hw'] at h
    exact .inr ⟨h ▸ hzero, hw⟩
  · rw [hv, hw] at h
    exact .inl h

/-- A zero as a message shows it. -/
lemma brief_of_isZero {v : Binary64} (h : v.IsZero) : v.brief = "0" ∨ v.brief = "-0" := by
  obtain ⟨s, e, rfl⟩ := h
  cases s with
  | false => exact .inl rfl
  | true => exact .inr rfl

end Binary64

/-- Words that are equal are the same word unless they are numbers. -/
lemma Lexeme.eq_or_of_same {w w' : Lexeme} (h : w.same w' = true) :
    w = w' ∨ ∃ v v', w = .number v ∧ w' = .number v' ∧ v.same v' = true := by
  cases w <;> cases w' <;> try cases h
  case number v v' => exact .inr ⟨v, v', rfl, rfl, h⟩
  all_goals exact .inl (congrArg _ (eq_of_beq h))

lemma Lexeme.eq_or_isZero_of_mapNumber {w w' : Lexeme}
    (h : w.mapNumber .unsigned = w'.mapNumber .unsigned) :
    w = w' ∨ ∃ v v', w = .number v ∧ w' = .number v' ∧ v.IsZero ∧ v'.IsZero := by
  cases w <;> cases w' <;> try cases h
  case number v v' =>
    rcases Binary64.eq_or_isZero_of_unsigned_eq (Lexeme.number.inj h) with rfl | ⟨hv, hv'⟩
    · exact .inl rfl
    · exact .inr ⟨v, v', rfl, rfl, hv, hv'⟩
  all_goals exact .inl rfl

namespace Token

variable {s t : Token}

lemma bareBy_unsigned_of_agrees (h : s.Agrees t) : s.bareBy .unsigned = t.bareBy .unsigned := by
  rw [bareBy, bareBy]
  rcases h with hsame | hequal
  · rw [hsame]
  · rcases Lexeme.eq_or_of_same hequal with hsame | ⟨v, v', hv, hv', hvalues⟩
    · rw [hsame]
    · rw [hv, hv', Lexeme.mapNumber, Lexeme.mapNumber, Binary64.unsigned_eq_of_same hvalues]

/-- Equal words of texts are the same word. -/
lemma lexeme_eq_of_agrees (hs : ∀ v, s.lexeme = .number v → v.IsPlain)
    (ht : ∀ v, t.lexeme = .number v → v.IsPlain) (h : s.Agrees t) : s.lexeme = t.lexeme := by
  rcases h with hsame | hequal
  · exact hsame
  · rcases Lexeme.eq_or_of_same hequal with hsame | ⟨v, v', hv, hv', hvalues⟩
    · exact hsame
    · rw [hv, hv', (hs v hv).eq_of_same (ht v' hv') hvalues]

end Token

lemma map_bareBy_unsigned_of_agrees {ts us : List Token} (h : List.Forall₂ Token.Agrees ts us) :
    ts.map (Token.bareBy .unsigned) = us.map (Token.bareBy .unsigned) := by
  induction h with
  | nil => rfl
  | cons hst hrest ih =>
    rw [List.map_cons, List.map_cons, ih, Token.bareBy_unsigned_of_agrees hst]

lemma map_lexeme_of_agrees {ts us : List Token}
    (hts : ∀ t ∈ ts, ∀ v, t.lexeme = .number v → v.IsPlain)
    (hus : ∀ t ∈ us, ∀ v, t.lexeme = .number v → v.IsPlain)
    (h : List.Forall₂ Token.Agrees ts us) : ts.map (·.lexeme) = us.map (·.lexeme) := by
  induction h with
  | nil => rfl
  | @cons s t ts us hst hrest ih =>
    have hsame : s.lexeme = t.lexeme :=
      Token.lexeme_eq_of_agrees (hts s List.mem_cons_self) (hus t List.mem_cons_self) hst
    have hlater := ih (fun t ht => hts t (List.mem_cons_of_mem _ ht))
      fun t ht => hus t (List.mem_cons_of_mem _ ht)
    rw [List.map_cons, List.map_cons, hsame, hlater]

/-! ### Alike outcomes -/

/-- The listing of a program. -/
def Program.listing (layout : Layout) (p : Program) : Except Failure (List String) := do
  let code ← p.lower.mapError .code
  layout.render code

variable (f : Binary64 → Binary64)

/-- Reading gives two programs that differ only in places and in what `f` makes alike of their
constants, with the same code and the same listings, or two complaints that differ only in this. -/
inductive ReadAlike : Except ParseError Program → Except ParseError Program → Prop
  | programs {p q : Program} (hsame : p.bareBy f = q.bareBy f) (hcode : p.lower = q.lower)
      (hlisting : ∀ layout, p.listing layout = q.listing layout) : ReadAlike (.ok p) (.ok q)
  | complaints {d e : ParseError} (hsame : d.bareBy f = e.bareBy f) :
      ReadAlike (.error d) (.error e)

variable {f} in
/-- Tokens that differ only in places and in what `f` makes alike are read alike. -/
lemma readAlike_of_map_eq {ts us : List Token} (hf : ∀ v, (f v).truncate = v.truncate)
    (h : ts.map (Token.bareBy f) = us.map (Token.bareBy f)) :
    ReadAlike f (parse ts) (parse us) := by
  have houtcome : bareOutcome f (Program.bareBy f) (parse ts) =
      bareOutcome f (Program.bareBy f) (parse us) := by
    rw [← parse_bareBy, h, parse_bareBy]
  cases hts : parse ts with
  | error d =>
    cases hus : parse us with
    | error e =>
      rw [hts, hus] at houtcome
      exact .complaints (Except.error.inj houtcome)
    | ok q =>
      rw [hts, hus] at houtcome
      cases houtcome
  | ok p =>
    cases hus : parse us with
    | error e =>
      rw [hts, hus] at houtcome
      cases houtcome
    | ok q =>
      rw [hts, hus] at houtcome
      have hsame : p.bareBy f = q.bareBy f := Except.ok.inj houtcome
      -- both have the code of the one program that is left without places
      have hcode : p.lower = q.lower := by rw [← lower_bareBy hf hts, hsame, lower_bareBy hf hus]
      refine .programs hsame hcode fun layout => ?_
      rw [Program.listing, Program.listing, hcode]

/-- The same words are read alike, wherever they stand. -/
lemma readAlike_of_map_lexeme {ts us : List Token} (h : ts.map (·.lexeme) = us.map (·.lexeme)) :
    ReadAlike id (parse ts) (parse us) := by
  have hbare : Token.bareBy id = (fun w => ⟨w.mapNumber id, none⟩) ∘ Token.lexeme := rfl
  refine readAlike_of_map_eq (fun v => rfl) ?_
  rw [hbare, ← List.map_map, ← List.map_map, h]

/-- A failure without the place of the token that it blames. -/
def Failure.bare : Failure → Failure
  | .parse e => .parse (e.bareBy id)
  | e => e

/-- Compiling gives the same lines, or failures that differ in places at most. -/
inductive CompileAlike : Except Failure Compilation → Except Failure Compilation → Prop
  | listings {c d : Compilation} (h : c.lines = d.lines) : CompileAlike (.ok c) (.ok d)
  | failures {e e' : Failure} (h : e.bare = e'.bare) : CompileAlike (.error e) (.error e')

lemma compile_of_scan {layout : Layout} {file source : String} {ts : List Token}
    (h : scan file source = .ok ts) :
    compile layout file source = do
      layout.validate.mapError .options
      let p ← (parse ts).mapError .parse
      let c ← p.lower.mapError .code
      let lines ← layout.render c
      return ⟨ts, p, c, lines⟩ := by
  rw [compile, compileWith, h]
  rfl

/-- Texts are compiled alike if their tokens are read alike. -/
lemma compileAlike_of_readAlike {file file' source source' : String} {ts us : List Token}
    (layout : Layout) (hts : scan file source = .ok ts) (hus : scan file' source' = .ok us)
    (h : ReadAlike id (parse ts) (parse us)) :
    CompileAlike (compile layout file source) (compile layout file' source') := by
  rw [compile_of_scan hts, compile_of_scan hus]
  cases layout.validate with
  | error e => exact .failures rfl
  | ok _ =>
    generalize parse ts = x at h ⊢
    generalize parse us = y at h ⊢
    cases h with
    | complaints hsame => exact .failures (congrArg Failure.parse hsame)
    | @programs p q hsame hcode hlisting =>
      show CompileAlike (p.lower.mapError _ >>= _) (q.lower.mapError _ >>= _)
      rw [hcode]
      cases q.lower with
      | error e => exact .failures rfl
      | ok c =>
        show CompileAlike (layout.render c >>= _) (layout.render c >>= _)
        cases layout.render c with
        | error e => exact .failures rfl
        | ok lines => exact .listings rfl

namespace ParseError

variable {d e : ParseError}

/-- Without its place, a complaint says the same. -/
lemma report_bareBy_id (e : ParseError) :
    (e.bareBy id).report = { e.report with location := none } := by
  cases e with
  | unexpectedEnd expected => rfl
  | unexpectedToken t expected =>
    obtain ⟨lexeme, l⟩ := t
    cases lexeme <;> rfl

/-- A complaint is about a zero. -/
def BlamesZero (e : ParseError) : Prop :=
  e.report.description = "unexpected token number 0" ∨
    e.report.description = "unexpected token number -0"

lemma blamesZero_of_isZero {v : Binary64} (h : v.IsZero) (l : Option Location)
    (expected : Option String) : BlamesZero (.unexpectedToken ⟨.number v, l⟩ expected) := by
  have hdescription : (unexpectedToken ⟨.number v, l⟩ expected).report.description =
      "unexpected token " ++ ("number " ++ v.brief) := rfl
  rw [BlamesZero, hdescription]
  rcases Binary64.brief_of_isZero h with hbrief | hbrief
  · exact .inl (by rw [hbrief]; rfl)
  · exact .inr (by rw [hbrief]; rfl)

/-- Complaints that differ in the sign of a zero are about zeros, and they hint at the same. -/
lemma eq_or_blamesZero_of_bareBy (h : d.bareBy .unsigned = e.bareBy .unsigned) :
    d.bareBy id = e.bareBy id ∨
      d.BlamesZero ∧ e.BlamesZero ∧ d.report.hint = e.report.hint := by
  cases d with
  | unexpectedEnd expected =>
    cases e with
    | unexpectedEnd expected' => exact .inl h
    | unexpectedToken t expected' => cases h
  | unexpectedToken t expected =>
    cases e with
    | unexpectedEnd expected' => cases h
    | unexpectedToken t' expected' =>
      obtain ⟨ht, rfl⟩ := ParseError.unexpectedToken.inj h
      have hlexeme : t.lexeme.mapNumber .unsigned = t'.lexeme.mapNumber .unsigned :=
        congrArg Token.lexeme ht
      obtain ⟨lexeme, l⟩ := t
      obtain ⟨lexeme', l'⟩ := t'
      rcases Lexeme.eq_or_isZero_of_mapNumber hlexeme with rfl | ⟨v, v', rfl, rfl, hv, hv'⟩
      · exact .inl rfl
      · exact .inr ⟨blamesZero_of_isZero hv l expected, blamesZero_of_isZero hv' l' expected, rfl⟩

end ParseError

/-- Places in a text do not matter. The same words at other places are read alike: to programs that
are the same apart from places, or with the same complaint apart from its place. Words that are
equal as numbers are read alike apart from the signs of zeros, which no code shows, but the
complaint about a zero does. Texts with equal words are compiled to the same listing, or they fail
alike. -/
theorem alike_of_agrees :
    (∀ ts us : List Token, ts.map (·.lexeme) = us.map (·.lexeme) →
      ReadAlike id (parse ts) (parse us) ∧
        ∀ p q, parse ts = .ok p → parse us = .ok q → p.bare = q.bare) ∧
    (∀ ts us : List Token, List.Forall₂ Token.Agrees ts us →
      ReadAlike Binary64.unsigned (parse ts) (parse us)) ∧
    (∀ d e : ParseError, d.bareBy id = e.bareBy id →
      { d.report with location := none } = { e.report with location := none }) ∧
    (∀ d e : ParseError, d.bareBy .unsigned = e.bareBy .unsigned →
      d.bareBy id = e.bareBy id ∨ d.BlamesZero ∧ e.BlamesZero ∧ d.report.hint = e.report.hint) ∧
    ∀ (layout : Layout) (file file' source source' : String) (ts us : List Token),
      scan file source = .ok ts → scan file' source' = .ok us → List.Forall₂ Token.Agrees ts us →
        CompileAlike (compile layout file source) (compile layout file' source') := by
  refine ⟨?_, ?_, ?_, ?_, ?_⟩
  · intro ts us h
    have halike := readAlike_of_map_lexeme h
    refine ⟨halike, fun p q hp hq => ?_⟩
    rw [hp, hq] at halike
    cases halike with
    | programs hsame => rwa [p.bareBy_id, q.bareBy_id] at hsame
  · intro ts us h
    exact readAlike_of_map_eq Binary64.truncate_unsigned (map_bareBy_unsigned_of_agrees h)
  · intro d e h
    rw [← d.report_bareBy_id, h, e.report_bareBy_id]
  · intro d e h
    exact ParseError.eq_or_blamesZero_of_bareBy h
  · intro layout file file' source source' ts us hts hus h
    -- numerals have no signs, so equal words of texts are the same words
    have hwords := map_lexeme_of_agrees (tiles_of_scan hts).isPlain (tiles_of_scan hus).isPlain h
    exact compileAlike_of_readAlike layout hts hus (readAlike_of_map_lexeme hwords)

/-- A function that has a zero for a name. -/
def namedZero (negative : Bool) : List Token :=
  [⟨.keyword .kwFun, none⟩, ⟨.number (.finite negative 0 Binary64.leastExponent), none⟩]

/-- The words of `fun f(){}` at the given places of a text. -/
def emptyFunctionAt (file : String) (places : List (Int × Int)) : List Token :=
  List.zipWith (fun w place => ⟨w, some ⟨file, place.1, place.2⟩⟩)
    [.keyword .kwFun, .identifier "f", .mark .openParen, .mark .closeParen, .mark .openBrace,
      .mark .closeBrace] places

/-- Two texts that differ in spaces and in a comment, and two lists that differ in the sign of a
zero. -/
theorem alike_of_agrees_emptyFunction :
    (∃ ts us, scan "a" "fun f(){}" = .ok ts ∧ scan "b" "//f\nfun f ( )\n{ }" = .ok us ∧
      List.Forall₂ Token.Agrees ts us ∧
      CompileAlike (compile Layout.standard "a" "fun f(){}")
        (compile Layout.standard "b" "//f\nfun f ( )\n{ }")) ∧
    List.Forall₂ Token.Agrees (namedZero false) (namedZero true) ∧
    ReadAlike Binary64.unsigned (parse (namedZero false)) (parse (namedZero true)) := by
  have hts : scan "a" "fun f(){}" =
      .ok (emptyFunctionAt "a" [(1, 1), (1, 5), (1, 6), (1, 7), (1, 8), (1, 9)]) := by
    decide +kernel
  have hus : scan "b" "//f\nfun f ( )\n{ }" =
      .ok (emptyFunctionAt "b" [(2, 1), (2, 5), (2, 7), (2, 9), (3, 1), (3, 3)]) := by
    decide +kernel
  have hwords : List.Forall₂ Token.Agrees
      (emptyFunctionAt "a" [(1, 1), (1, 5), (1, 6), (1, 7), (1, 8), (1, 9)])
      (emptyFunctionAt "b" [(2, 1), (2, 5), (2, 7), (2, 9), (3, 1), (3, 3)]) := by
    simp [emptyFunctionAt, Token.Agrees]
  have hzeros : List.Forall₂ Token.Agrees (namedZero false) (namedZero true) :=
    .cons (.inl rfl) (.cons (.inr rfl) .nil)
  obtain ⟨-, hread, -, -, hcompile⟩ := alike_of_agrees
  exact ⟨⟨_, _, hts, hus, hwords, hcompile _ _ _ _ _ _ _ hts hus hwords⟩, hzeros,
    hread _ _ hzeros⟩

/-- Lists of equal words about which different things are said: a message shows the sign of a
zero. -/
theorem message_ne_of_sameWords :
    Token.sameWords (namedZero false) (namedZero true) = true ∧
    ∃ d e, parse (namedZero false) = .error d ∧ parse (namedZero true) = .error e ∧
      (Failure.parse d).message =
        "error: unexpected token number 0\nhint: expected function name" ∧
      (Failure.parse e).message =
        "error: unexpected token number -0\nhint: expected function name" :=
  ⟨rfl, _, _, rfl, rfl, by decide +kernel, by decide +kernel⟩

end TinyCompiler
