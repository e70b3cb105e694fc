import TinyCompiler.Compile
import TinyCompiler.Proofs.Outcome
import TinyCompiler.Proofs.Soundness

/-!
# The way of a text

What compiling a text ends with, for every text. The tokens of a text are never without a value, so
reading them builds sensible trees only, and what is known of lowering such trees applies. All
instructions that lowering makes can be printed, and a label that marks nothing was refused before.
-/

namespace TinyCompiler

/-! ### Numbers in a text -/

lemma Binary64.ofRatio_ne_nan (negative : Bool) (num den : Nat) :
    ofRatio negative num den ≠ .nan := by
  rw [ofRatio]
  split
  · simp
  · dsimp only
    split <;> split <;> simp

lemma Decimal.toBinary64_ne_nan (negative : Bool) (d : Decimal) : d.toBinary64 negative ≠ .nan := by
  rw [toBinary64]
  split
  · simp
  · split
    · simp
    · exact Binary64.ofRatio_ne_nan _ _ _

/-- The value of a numeral is a number. -/
lemma Numeral.ne_nan_of_value? {n : Numeral} {v : Binary64} (h : n.value? = some v) : v ≠ .nan := by
  rw [value?] at h
  split at h
  · obtain ⟨digits, -, h⟩ := Option.bind_eq_some_iff.mp h
    rw [wholeValue?] at h
    split at h
    · cases h
    · dsimp only at h
      split at h
      · obtain rfl := Option.some.inj h
        exact Binary64.ofRatio_ne_nan _ _ _
      · cases h
  · obtain ⟨digits, -, rfl⟩ := Option.map_eq_some_iff.mp h
    exact Decimal.toBinary64_ne_nan _ _

/-- A word of a text is no number without a value. -/
lemma Piece.ne_nan_of_split {c : Char} {cs text : List Char} {lexeme : Lexeme}
    (h : (split c cs).1 = .word text lexeme) : lexeme ≠ .number .nan := by
  simp only [split] at h
  split at h
  · cases h
  · split at h
    · dsimp only at h
      rw [ofNumeral] at h
      split at h
      next value hvalue =>
        cases h
        intro heq
        exact Numeral.ne_nan_of_value? hvalue (Lexeme.number.inj heq)
      next => cases h
    · split at h
      · cases h
        rw [wordLexeme]
        split <;> simp
      · split at h
        next rest _ _ _ =>
          unfold splitComment at h
          dsimp only at h
          split at h <;> cases h
        next =>
          dsimp only at h
          rw [single] at h
          split at h
          · cases h
            simp
          · cases h

namespace Cursor

lemma ne_nan_of_next {c d : Cursor} {t : Token} (h : c.next = (some (.token t), d)) :
    t.lexeme ≠ .number .nan := by
  fun_induction next c with
  | case1 => simp at h
  | case2 c ch cs hrest after text hpiece ih => exact ih h
  | case3 c ch cs hrest after text lexeme hpiece =>
    obtain ⟨hreading, -⟩ := Prod.mk.inj h
    obtain rfl := Reading.token.inj (Option.some.inj hreading)
    exact Piece.ne_nan_of_split hpiece
  | case4 c ch cs hrest after text fault hpiece => simp at h

lemma ne_nan_of_drain {c : Cursor} {tokens : List Token} (h : c.drain.1 = .ok tokens) :
    ∀ t ∈ tokens, t.lexeme ≠ .number .nan := by
  fun_induction drain c generalizing tokens with
  | case1 c d hnext =>
    obtain rfl := Except.ok.inj h
    simp
  | case2 c e d hnext => cases h
  | case3 c t d hnext rest last hdrain ih =>
    cases rest with
    | error e => cases h
    | ok ts =>
      obtain rfl := Except.ok.inj h
      intro t' ht'
      rcases List.mem_cons.mp ht' with rfl | ht'
      · exact ne_nan_of_next hnext
      · exact ih (by rw [hdrain]) t' ht'

end Cursor

/-- The tokens of a text are words with values. -/
lemma ne_nan_of_scan {file source : String} {tokens : List Token}
    (h : scan file source = .ok tokens) : ∀ t ∈ tokens, t.lexeme ≠ .number .nan :=
  Cursor.ne_nan_of_drain h

/-! ### Trees that are read -/

namespace Node

mutual

/-- Locations do not matter to whether an expression is sensible. -/
theorem isExpression_of_bare : (e : Node) → e.bare.IsExpression → e.IsExpression
  | .constant _ _, h => by
    cases h with
    | constant hv => exact .constant hv
  | .symbol _ _, _ => .symbol
  | .binary _ left right _, h => by
    cases h with
    | binary hleft hright =>
      exact .binary (isExpression_of_bare left hleft) (isExpression_of_bare right hright)
  | .unary _ e _, h => by
    cases h with
    | negation h => exact .negation (isExpression_of_bare e h)
  | .call _ es _, h => by
    cases h with
    | call h => exact .call (isExpression_of_bareAll es h)
  | .missing, h | .program _ _, h | .function _ _ _, h | .bareStatement _, h | .evaluate _ _, h
  | .assign _ _ _, h | .giveBack _ _, h | .conditional _ _ _ _, h | .bareExpression _, h
  | .rowless _ _, h => by cases h

theorem isExpression_of_bareAll : (es : List Node) → (∀ e ∈ bareAll es, e.IsExpression) →
    ∀ e ∈ es, e.IsExpression
  | [], _ => by simp
  | e :: es, h => by
    intro e' he'
    rcases List.mem_cons.mp he' with heq | he'
    · rw [heq]
      exact isExpression_of_bare e (h _ (by simp [bareAll]))
    · exact isExpression_of_bareAll es (fun e he => h e (by simp [bareAll, he])) e' he'

end

lemma eq_missing_of_bare {n : Node} (h : n.bare = .missing) : n = .missing := by
  cases n <;> first | rfl | simp [bare] at h

lemma isStatement_of_bare {n : Node} (h : n.bare.IsStatement) : n.IsStatement := by
  cases n with
  | giveBack value l =>
    generalize hbare : value.bare = e at h
    simp only [bare, hbare] at h
    cases h with
    | giveBack =>
      obtain rfl := eq_missing_of_bare hbare
      exact .giveBack
    | giveBackValue he => exact .giveBackValue (isExpression_of_bare value (hbare ▸ he))
  | assign x e l =>
    cases h with
    | assign he => exact .assign (isExpression_of_bare e he)
  | conditional c t e l =>
    generalize hbare : e.bare = e' at h
    simp only [bare, hbare] at h
    cases h with
    | conditional hc ht =>
      obtain rfl := eq_missing_of_bare hbare
      exact .conditional (isExpression_of_bare c hc) (isExpression_of_bare t ht)
    | conditionalElse hc ht he =>
      exact .conditionalElse (isExpression_of_bare c hc) (isExpression_of_bare t ht)
        (isExpression_of_bare e (hbare ▸ he))
  | _ => cases h

end Node

/-- The trees of a phrase are sensible. -/
def Phrase.IsSensible : Phrase → Prop
  | .sum e | .product e | .unary e | .atom e => e.IsExpression
  | .arguments es => ∀ e ∈ es, e.IsExpression

lemma Derives.isSensible {w : List Lexeme} {phrase : Phrase} (h : Derives w phrase)
    (hw : .number .nan ∉ w) : phrase.IsSensible := by
  induction h with
  | product h ih | unary h ih | atom h ih => exact ih hw
  | addition hleft hop hright ihleft ihright | multiplication hleft hop hright ihleft ihright =>
    simp only [List.mem_append, List.mem_cons, not_or] at hw
    exact Node.IsExpression.binary (ihleft hw.1) (ihright hw.2.2)
  | negation h ih =>
    simp only [List.mem_cons, not_or] at hw
    exact Node.IsExpression.negation (ih hw.2)
  | number =>
    refine Node.IsExpression.constant fun hnan => hw ?_
    simp [hnan]
  | name => exact Node.IsExpression.symbol
  | emptyCall => exact Node.IsExpression.call (by simp)
  | call h ih =>
    simp only [List.mem_append, List.mem_cons, not_or] at hw
    exact Node.IsExpression.call (ih hw.2.2.1)
  | group h ih =>
    simp only [List.mem_append, List.mem_cons, not_or] at hw
    exact ih hw.2.1
  | lastArgument h ih =>
    intro e he
    rw [List.mem_singleton.mp he]
    exact ih hw
  | argument hfirst hrest ihfirst ihrest =>
    simp only [List.mem_append, List.mem_cons, not_or] at hw
    intro e he
    rcases List.mem_cons.mp he with rfl | he
    · exact ihfirst hw.1
    · exact ihrest hw.2.2 e he

lemma DerivesStatement.isStatement {w : List Lexeme} {n : Node} (h : DerivesStatement w n)
    (hw : .number .nan ∉ w) : n.IsStatement := by
  cases h with
  | giveBack => exact .giveBack
  | giveBackValue he =>
    simp only [List.mem_append, List.mem_cons, not_or] at hw
    exact .giveBackValue (he.isSensible hw.2.1)
  | assign he =>
    simp only [List.mem_append, List.mem_cons, not_or] at hw
    exact .assign (he.isSensible hw.2.2.2.1)
  | conditional hcondition hthen =>
    simp only [List.mem_append, List.mem_cons, not_or] at hw
    exact .conditional (hcondition.isSensible hw.2.2.1) (hthen.isSensible hw.2.2.2.2.1)
  | conditionalElse hcondition hthen helse =>
    simp only [List.mem_append, List.mem_cons, not_or] at hw
    exact .conditionalElse (hcondition.isSensible hw.2.2.1) (hthen.isSensible hw.2.2.2.2.1)
      (helse.isSensible hw.2.2.2.2.2.2.1)

lemma DerivesBody.isStatement {w : List Lexeme} {ns : List Node} (h : DerivesBody w ns)
    (hw : .number .nan ∉ w) : ∀ n ∈ ns, n.IsStatement := by
  induction h with
  | nil => simp
  | cons hfirst hrest ih =>
    rw [List.mem_append, not_or] at hw
    intro n hn
    rcases List.mem_cons.mp hn with rfl | hn
    · exact hfirst.isStatement hw.1
    · exact ih hw.2 n hn

lemma DerivesFunctions.isSensible {w : List Lexeme} {fs : List Function}
    (h : DerivesFunctions w fs) (hw : .number .nan ∉ w) : ∀ f ∈ fs, f.IsSensible := by
  induction h with
  | nil => simp
  | unclosed hbody =>
    rw [List.mem_append, not_or] at hw
    intro f hf
    rw [List.mem_singleton.mp hf]
    exact hbody.isStatement hw.2
  | cons hbody hrest ih =>
    simp only [List.mem_append, List.mem_cons, not_or] at hw
    intro f hf
    rcases List.mem_cons.mp hf with rfl | hf
    · exact hbody.isStatement hw.1.2
    · exact ih hw.2.2 f hf

/-- What is read from tokens with values is sensible. -/
lemma isSensible_of_parse {tokens : List Token} {p : Program} (h : parse tokens = .ok p)
    (htokens : ∀ t ∈ tokens, t.lexeme ≠ .number .nan) : ∀ f ∈ p.functions, f.IsSensible := by
  have hw : .number .nan ∉ tokens.map (·.lexeme) := by
    intro hmem
    obtain ⟨t, ht, hlexeme⟩ := List.mem_map.mp hmem
    exact htokens t ht hlexeme
  intro f hf n hn
  have hbare := DerivesFunctions.isSensible (derivesProgram_of_parse h) hw f.bare
    (List.mem_map_of_mem hf)
  exact Node.isStatement_of_bare (hbare n.bare (List.mem_map_of_mem hn))

/-! ### Instructions that are printed -/

/-- Whether an instruction has a name in listings. -/
def Instr.isNamed : Instr → Bool
  | .binOp _ op _ => op.isSome
  | .unOp op _ => op.unaryMnemonic?.isSome
  | .mov _ _ | .cmp _ _ | .jmp _ | .jez _ | .call _ | .ret => true
  | .other _ => false

/-- Whether an operand is one that listings know. -/
def Operand.isKnown : Operand → Bool
  | .imm _ | .reg _ | .deref _ | .slot _ | .label _ => true
  | .other _ => false

namespace Layout

variable {layout : Layout}

/-- An operand has a text. -/
def PrintsOperand (layout : Layout) (o : Operand) : Prop := ∃ text, layout.operandText o = .ok text

/-- An instruction has a text. -/
def Prints (layout : Layout) (i : Instr) : Prop := ∃ text, layout.instrText i = .ok text

/-- If nothing limits the digits of a number, every number has a text. -/
lemma numberText_eq_ok (hdigits : layout.maxDigits = none) (number : Int) :
    layout.numberText number = .ok (toString number) := by
  rw [numberText, hdigits]

/-- If nothing limits the digits of a number, every operand that listings know has a text. -/
lemma printsOperand_of_isKnown (hdigits : layout.maxDigits = none) {o : Operand}
    (ho : o.isKnown = true) : layout.PrintsOperand o := by
  have hnumber := numberText_eq_ok hdigits
  cases o with
  | imm | reg | deref | slot =>
    rw [PrintsOperand, operandText, hnumber]
    exact ⟨_, rfl⟩
  | label name => exact ⟨name, rfl⟩
  | other shown => cases ho

lemma exists_withOperands (mnemonic : String) {operands : List Operand}
    (h : ∀ o ∈ operands, layout.PrintsOperand o) :
    ∃ text, layout.withOperands mnemonic operands = .ok text := by
  have htexts : ∃ texts, operands.mapM layout.operandText = .ok texts := by
    induction operands with
    | nil => exact ⟨[], rfl⟩
    | cons o operands ih =>
      obtain ⟨text, htext⟩ := h o (by simp)
      obtain ⟨texts, htexts⟩ := ih fun o ho => h o (by simp [ho])
      refine ⟨text :: texts, ?_⟩
      rw [List.mapM_cons, htext, htexts]
      rfl
  obtain ⟨texts, htexts⟩ := htexts
  rw [withOperands, htexts]
  exact ⟨_, rfl⟩

/-- An instruction that has a name in listings is printed if its operands are. -/
lemma prints_of_isNamed {i : Instr} (hi : i.isNamed = true)
    (h : ∀ o ∈ i.operands, layout.PrintsOperand o) : layout.Prints i := by
  cases i with
  | binOp lhs op rhs =>
    cases op with
    | none => cases hi
    | some op => exact exists_withOperands op.mnemonic h
  | unOp op operand =>
    obtain ⟨mnemonic, hmnemonic⟩ := Option.isSome_iff_exists.mp hi
    rw [Prints]
    simp only [instrText, hmnemonic]
    exact exists_withOperands mnemonic h
  | mov src dst => exact exists_withOperands "movq" h
  | cmp a b => exact exists_withOperands "cmp" h
  | jmp target => exact exists_withOperands "jmp" h
  | jez target => exact exists_withOperands "jez" h
  | call target => exact exists_withOperands "call" h
  | ret => exact ⟨"ret", rfl⟩
  | other shown => cases hi

/-- Instructions that have texts are woven into lines, whatever the labels. -/
lemma exists_weave {is : List Instr} (h : ∀ i ∈ is, layout.Prints i) (index : Int)
    (labels : Table Int) : ∃ lines, layout.weave index is labels = .ok lines := by
  induction is generalizing index labels with
  | nil => exact ⟨_, rfl⟩
  | cons i is ih =>
    obtain ⟨text, htext⟩ := h i (by simp)
    obtain ⟨rest, hrest⟩ := ih (fun i hi => h i (by simp [hi])) (index + 1)
      (labels.dropWhile (·.2 ≤ index))
    refine ⟨(labels.takeWhile (·.2 ≤ index)).map labelLine ++ (layout.indent ++ text) :: rest, ?_⟩
    rw [weave, htext]
    show (layout.weave _ _ _ >>= _) = _
    rw [hrest]
    rfl

end Layout

/-- The trees of a part are sensible. -/
def Part.IsSensible : Part → Prop
  | .expression e => e.IsExpression
  | .arguments _ es => ∀ e ∈ es, e.IsExpression
  | .statement n => n.IsStatement
  | .statements ns => ∀ n ∈ ns, n.IsStatement

/-- All instructions so far have texts. -/
def Builder.Printable (layout : Layout) (b : Builder) : Prop :=
  ∀ i ∈ b.instrs.toList, layout.Prints i

namespace Builder.Printable

variable {layout : Layout} {b b' : Builder} {i : Instr}

lemma append (hb : b.Printable layout) (hdigits : layout.maxDigits = none)
    (hi : i.isNamed = true) (hoperands : i.operands.all Operand.isKnown = true) :
    (b.append i).Printable layout := by
  intro j hj
  rw [toList_append, List.mem_append, List.mem_singleton] at hj
  rcases hj with hj | hj
  · exact hb j hj
  · rw [hj]
    refine Layout.prints_of_isNamed hi fun o ho => ?_
    exact Layout.printsOperand_of_isKnown hdigits (List.all_eq_true.mp hoperands o ho)

lemma slotFor (hb : b.Printable layout) (x : String) : (b.slotFor x).2.Printable layout := by
  rw [Printable]
  rwa [instrs_slotFor]

lemma newLabel {label : String} (hb : b.Printable layout) (h : b.newLabel = (label, b')) :
    b'.Printable layout := by
  obtain ⟨-, rfl⟩ := Prod.mk.inj h
  exact hb

end Builder.Printable

/-- All instructions of sensible parts have texts. -/
lemma Lowers.printable {layout : Layout} {part : Part} {b b' : Builder} (h : Lowers part b b')
    (hdigits : layout.maxDigits = none) (hpart : part.IsSensible) (hb : b.Printable layout) :
    b'.Printable layout := by
  -- the test of a conditional and the jump after it
  have htest : ∀ {b₁ b₂ : Builder} {label : String}, b₁.Printable layout →
      (b₁.append (.cmp (.imm 0) accumulator)).newLabel = (label, b₂) →
      (b₂.append (.jez (.label label))).Printable layout := by
    intro b₁ b₂ label hb₁ hlabel
    have hcmp := hb₁.append hdigits (i := .cmp (.imm 0) accumulator) rfl rfl
    exact (hcmp.newLabel hlabel).append hdigits rfl rfl
  induction h with
  | constant => exact hb.append hdigits rfl rfl
  | symbol => exact (hb.slotFor _).append hdigits rfl rfl
  | binary _ _ ihleft ihright =>
    cases hpart with
    | binary hleft hright =>
      have hkept := (ihleft hleft hb).append hdigits (i := .mov accumulator scratch) rfl rfl
      exact (ihright hright hkept).append hdigits rfl rfl
  | negation _ ih =>
    cases hpart with
    | negation hoperand => exact (ih hoperand hb).append hdigits rfl rfl
  | call _ ih =>
    cases hpart with
    | call hes => exact (ih hes hb).append hdigits rfl rfl
  | noArguments | noStatements => exact hb
  | argument _ _ ihfirst ihrest =>
    refine ihrest (fun e he => hpart e (by simp [he])) ?_
    exact (ihfirst (hpart _ (by simp)) hb).append hdigits rfl rfl
  | evaluate => cases hpart
  | assign _ ih =>
    cases hpart with
    | assign he => exact ((ih he hb).slotFor _).append hdigits rfl rfl
  | giveBack => exact hb.append hdigits rfl rfl
  | giveBackValue hvalue ih =>
    cases hpart with
    | giveBack => cases hvalue
    | giveBackValue he => exact (ih he hb).append hdigits rfl rfl
  | conditional _ hlabel _ _ ihcondition ihthen =>
    cases hpart with
    | conditional hc ht => exact ihthen ht (htest (ihcondition hc hb) hlabel)
    | conditionalElse hc ht he => exact ihthen ht (htest (ihcondition hc hb) hlabel)
  | conditionalElse _ hlabel _ _ helse ihcondition ihthen ihelse =>
    cases hpart with
    | conditional hc ht => cases helse
    | conditionalElse hc ht he =>
      exact ihelse he (ihthen ht (htest (ihcondition hc hb) hlabel))
  | cons _ _ ihfirst ihrest =>
    exact ihrest (fun n hn => hpart n (by simp [hn])) (ihfirst (hpart _ (by simp)) hb)

lemma printable_of_foldlM_lower {layout : Layout} {fs : List Function} {b b' : Builder}
    (hdigits : layout.maxDigits = none) (h : fs.foldlM Function.lower b = .ok b')
    (hfs : ∀ f ∈ fs, f.IsSensible) (hb : b.Printable layout) : b'.Printable layout := by
  induction fs generalizing b with
  | nil =>
    obtain rfl := Except.ok.inj h
    exact hb
  | cons f fs ih =>
    rw [List.foldlM_cons, bind_eq_ok_iff] at h
    obtain ⟨b₁, h₁, h₂⟩ := h
    obtain ⟨-, hbody⟩ := Function.lowers_of_lower h₁
    have hmark : (b.mark f.name).Printable layout := hb
    exact ih h₂ (fun g hg => hfs g (by simp [hg]))
      (hbody.printable hdigits (hfs f (by simp)) hmark)

/-- The code of a sensible program can be printed. -/
lemma exists_render {layout : Layout} {p : Program} {c : Code} (hdigits : layout.maxDigits = none)
    (hp : ∀ f ∈ p.functions, f.IsSensible) (h : p.lower = .ok c) :
    ∃ lines, layout.render c = .ok lines := by
  obtain ⟨b, hb, hlabels, rfl⟩ := Program.lower_eq_ok_iff.mp h
  have hempty : (Builder.empty (p.functions.map (·.name))).Printable layout := by
    intro i hi
    cases hi
  have hprintable := printable_of_foldlM_lower hdigits hb hp hempty
  obtain ⟨lines, hlines⟩ := Layout.exists_weave hprintable 0 (Layout.printedLabels b.code.labels)
  refine ⟨lines, ?_⟩
  have hcheck : b.code.checkLabels = .ok () := by rw [Code.checkLabels, hlabels]
  rw [Layout.render, hcheck]
  show (layout.weave 0 b.instrs.toList (Layout.printedLabels b.code.labels)).mapError _ = _
  rw [hlines]
  rfl

/-! ### The stages in order -/

/-- The first function of a program whose name repeats an earlier one, with the functions before
it. -/
def Program.FirstRepeated (p : Program) (before : List Function) (d : Function) : Prop :=
  (∃ after, p.functions = before ++ d :: after) ∧ (before.map (·.name)).Nodup ∧
    d.name ∈ before.map (·.name)

/-- If names are repeated, one is the first. -/
lemma Program.nodup_or_firstRepeated (p : Program) :
    p.names.Nodup ∨ ∃ before d, p.FirstRepeated before d := by
  obtain ⟨fs⟩ := p
  show (fs.map (·.name)).Nodup ∨ ∃ before d, Program.FirstRepeated ⟨fs⟩ before d
  induction fs using List.reverseRecOn with
  | nil => exact .inl List.nodup_nil
  | append_singleton fs f ih =>
    rcases ih with hnodup | ⟨before, d, ⟨after, hafter⟩, hrest⟩
    · by_cases hf : f.name ∈ fs.map (·.name)
      · exact .inr ⟨fs, f, ⟨[], rfl⟩, hnodup, hf⟩
      · left
        rw [List.map_append, List.nodup_append]
        refine ⟨hnodup, by simp, ?_⟩
        intro name hname other hother heq
        obtain rfl : other = f.name := by simpa using hother
        exact hf (heq ▸ hname)
    · right
      refine ⟨before, d, ⟨after ++ [f], ?_⟩, hrest⟩
      have : fs = before ++ d :: after := hafter
      simp [this]

section Stages

variable {layout : Layout} {file source : String} {tokens : List Token} {p : Program}

lemma compile_of_scan_error {e : ScanError} (hvalid : layout.validate = .ok ())
    (hscan : scan file source = .error e) : compile layout file source = .error (.scan e) := by
  simp only [compile, compileWith, hvalid, hscan]
  rfl

lemma compile_of_parse_error {e : ParseError} (hvalid : layout.validate = .ok ())
    (hscan : scan file source = .ok tokens) (hparse : parse tokens = .error e) :
    compile layout file source = .error (.parse e) := by
  simp only [compile, compileWith, hvalid, hscan]
  show ((parse tokens).mapError Failure.parse >>= _) = _
  rw [hparse]
  rfl

lemma compile_of_lower_error {e : CodeError} (hvalid : layout.validate = .ok ())
    (hscan : scan file source = .ok tokens) (hparse : parse tokens = .ok p)
    (hlower : p.lower = .error e) : compile layout file source = .error (.code e) := by
  simp only [compile, compileWith, hvalid, hscan]
  show ((parse tokens).mapError Failure.parse >>= _) = _
  rw [hparse]
  show (p.lower.mapError Failure.code >>= _) = _
  rw [hlower]
  rfl

lemma compile_of_render {c : Code} {lines : List String} (hvalid : layout.validate = .ok ())
    (hscan : scan file source = .ok tokens) (hparse : parse tokens = .ok p)
    (hlower : p.lower = .ok c) (hrender : layout.render c = .ok lines) :
    compile layout file source = .ok ⟨tokens, p, c, lines⟩ := by
  simp only [compile, compileWith, hvalid, hscan]
  show ((parse tokens).mapError Failure.parse >>= _) = _
  rw [hparse]
  show (p.lower.mapError Failure.code >>= _) = _
  rw [hlower]
  show (layout.render c >>= _) = _
  rw [hrender]
  rfl

end Stages

/-- How compiling ends for a program that was read: which of its names, constants and calls
decides. Where none of them is at fault, what comes out is the program with its code and the lines
in which the layout prints the code. -/
structure Program.Decides (p : Program) (layout : Layout)
    (outcome : Except Failure Compilation) : Prop where
  overflow_before : ∀ before d, p.FirstRepeated before d → (∃ f ∈ before, f.Overflows) →
    outcome = .error (.code .infiniteConstant)
  repeated : ∀ before d, p.FirstRepeated before d → (¬ ∃ f ∈ before, f.Overflows) →
    ∃ first, outcome = .error (.code (.duplicateLabel d.name first))
  overflow : p.names.Nodup → (∃ f ∈ p.functions, f.Overflows) →
    outcome = .error (.code .infiniteConstant)
  lacking : p.names.Nodup → (¬ ∃ f ∈ p.functions, f.Overflows) →
    ∀ callee, p.callees.find? p.lacks = some callee →
      ∃ similar, outcome = .error (.code (.unresolvedLabel callee similar))
  complete : p.names.Nodup → (¬ ∃ f ∈ p.functions, f.Overflows) →
    p.callees.find? p.lacks = none → ∃ result, outcome = .ok result ∧ result.program = p ∧
      p.lower = .ok result.code ∧ layout.render result.code = .ok result.lines

lemma decides_of_parse {layout : Layout} {file source : String} {tokens : List Token} {p : Program}
    (hvalid : layout.validate = .ok ()) (hdigits : layout.maxDigits = none)
    (hscan : scan file source = .ok tokens) (hparse : parse tokens = .ok p) :
    p.Decides layout (compile layout file source) := by
  have hp := isSensible_of_parse hparse (ne_nan_of_scan hscan)
  have herror : ∀ {e}, p.lower = .error e → compile layout file source = .error (.code e) :=
    compile_of_lower_error hvalid hscan hparse
  constructor
  case overflow_before =>
    rintro before d ⟨⟨after, hafter⟩, hnodup, -⟩ hover
    exact herror (Program.lower_of_overflows_before hp hafter hnodup hover)
  case repeated =>
    rintro before d ⟨⟨after, hafter⟩, hnodup, hrepeated⟩ hfinite
    obtain ⟨first, hfirst⟩ := Program.lower_of_repeated hp hafter hnodup hrepeated hfinite
    exact ⟨first, herror hfirst⟩
  case overflow =>
    intro hnodup hover
    exact herror (Program.lower_of_overflows hp hnodup hover)
  case lacking =>
    intro hnodup hfinite callee hcallee
    obtain ⟨similar, hsimilar⟩ := (Program.lower_of_finite hp hnodup hfinite).1 callee hcallee
    exact ⟨similar, herror hsimilar⟩
  case complete =>
    -- code that was made is printed, so nothing can fail any more
    intro hnodup hfinite hnone
    obtain ⟨c, hc⟩ := (Program.lower_of_finite hp hnodup hfinite).2 hnone
    obtain ⟨lines, hlines⟩ := exists_render hdigits hp hc
    exact ⟨_, compile_of_render hvalid hscan hparse hc hlines, rfl, hc, hlines⟩

/-- The cases of `Program.Decides` are all there are. -/
lemma Program.Decides.cases {p : Program} {layout : Layout} {failure : Failure}
    (h : p.Decides layout (.error failure)) :
    failure = .code .infiniteConstant ∨
      (∃ name first, failure = .code (.duplicateLabel name first)) ∨
      ∃ name similar, failure = .code (.unresolvedLabel name similar) := by
  rcases p.nodup_or_firstRepeated with hnodup | ⟨before, d, hd⟩
  · by_cases hover : ∃ f ∈ p.functions, f.Overflows
    · exact .inl (Except.error.inj (h.overflow hnodup hover))
    · cases hfind : p.callees.find? p.lacks with
      | none =>
        obtain ⟨result, hresult, -⟩ := h.complete hnodup hover hfind
        cases hresult
      | some callee =>
        obtain ⟨similar, hsimilar⟩ := h.lacking hnodup hover callee hfind
        exact .inr (.inr ⟨callee, similar, Except.error.inj hsimilar⟩)
  · by_cases hover : ∃ f ∈ before, f.Overflows
    · exact .inl (Except.error.inj (h.overflow_before before d hd hover))
    · obtain ⟨first, hfirst⟩ := h.repeated before d hd hover
      exact .inr (.inl ⟨d.name, first, Except.error.inj hfirst⟩)

/-- Compiling a text ends with the first of these: a fault of scanning, a complaint of reading, an
infinite constant before a repeated name, a repeated name, or a call to what is neither declared nor
made up; otherwise with a listing. It never fails in another way, and code that was made is always
printed. -/
theorem compile_outcome {layout : Layout} (hvalid : layout.validate = .ok ())
    (hdigits : layout.maxDigits = none) (file source : String) :
    (∀ e, scan file source = .error e → compile layout file source = .error (.scan e)) ∧
    (∀ tokens, scan file source = .ok tokens →
      (∀ e, parse tokens = .error e → compile layout file source = .error (.parse e)) ∧
      ∀ p, parse tokens = .ok p → p.Decides layout (compile layout file source) ∧
        ∀ c, p.lower = .ok c → ∃ lines, layout.render c = .ok lines) ∧
    ∀ failure, compile layout file source = .error failure →
      (∃ e, failure = .scan e) ∨ (∃ e, failure = .parse e) ∨ failure = .code .infiniteConstant ∨
        (∃ name first, failure = .code (.duplicateLabel name first)) ∨
        ∃ name similar, failure = .code (.unresolvedLabel name similar) := by
  refine ⟨fun e hscan => compile_of_scan_error hvalid hscan, ?_, ?_⟩
  · intro tokens hscan
    refine ⟨fun e hparse => compile_of_parse_error hvalid hscan hparse, fun p hparse => ?_⟩
    refine ⟨decides_of_parse hvalid hdigits hscan hparse, fun c hc => ?_⟩
    exact exists_render hdigits (isSensible_of_parse hparse (ne_nan_of_scan hscan)) hc
  · intro failure hfailure
    -- the stages in order, each of which has succeeded where the next one is looked at
    cases hscan : scan file source with
    | error e =>
      rw [compile_of_scan_error hvalid hscan] at hfailure
      exact .inl ⟨e, (Except.error.inj hfailure).symm⟩
    | ok tokens =>
      cases hparse : parse tokens with
      | error e =>
        rw [compile_of_parse_error hvalid hscan hparse] at hfailure
        exact .inr (.inl ⟨e, (Except.error.inj hfailure).symm⟩)
      | ok p =>
        have hdecides := decides_of_parse hvalid hdigits hscan hparse
        rw [hfailure] at hdecides
        exact .inr (.inr hdecides.cases)

/-- A text with a call to what is not there. -/
theorem compile_outcome_undeclared :
    Layout.standard.validate = .ok () ∧ Layout.standard.maxDigits = none ∧
      ∃ similar, compile Layout.standard "a" "fun f(){return g();}" =
        .error (.code (.unresolvedLabel "g" similar)) := by
  have hvalid : Layout.standard.validate = .ok () := rfl
  have hdigits : Layout.standard.maxDigits = none := rfl
  obtain ⟨-, houtcome, -⟩ := compile_outcome hvalid hdigits "a" "fun f(){return g();}"
  have hscan : scan "a" "fun f(){return g();}" = .ok
      [⟨.keyword .kwFun, some ⟨"a", 1, 1⟩⟩, ⟨.identifier "f", some ⟨"a", 1, 5⟩⟩,
        ⟨.mark .openParen, some ⟨"a", 1, 6⟩⟩, ⟨.mark .closeParen, some ⟨"a", 1, 7⟩⟩,
        ⟨.mark .openBrace, some ⟨"a", 1, 8⟩⟩, ⟨.keyword .kwReturn, some ⟨"a", 1, 9⟩⟩,
        ⟨.identifier "g", some ⟨"a", 1, 16⟩⟩, ⟨.mark .openParen, some ⟨"a", 1, 17⟩⟩,
        ⟨.mark .closeParen, some ⟨"a", 1, 18⟩⟩, ⟨.mark .semicolon, some ⟨"a", 1, 19⟩⟩,
        ⟨.mark .closeBrace, some ⟨"a", 1, 20⟩⟩] := by
    decide +kernel
  obtain ⟨-, hparsed⟩ := houtcome _ hscan
  obtain ⟨hdecides, -⟩ := hparsed
    ⟨[⟨"f", [.giveBack (.call "g" [] (some ⟨"a", 1, 16⟩)) (some ⟨"a", 1, 9⟩)],
      some ⟨"a", 1, 1⟩⟩]⟩ rfl
  refine ⟨hvalid, hdigits, hdecides.lacking (by decide) ?_ "g" rfl⟩
  simp [Function.Overflows]

end TinyCompiler
