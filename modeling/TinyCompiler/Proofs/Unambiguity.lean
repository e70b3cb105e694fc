import Mathlib.Data.List.Permutation
import TinyCompiler.Proofs.Extension

/-!
# Listings from which code is found again

A listing shows all there is to know about instructions and about the order of labels. The first
character of an operand tells its sort, and the operand ends where its run of digits or of letters
ends, or after the frame register, which is the same in the whole listing. So operands can be read
off one after the other (`Layout.eq_of_operandChars_append_eq`), whatever the frame register is. An
instruction is known from its name and its operands, and its line is never the line of a label: it
has a space in it or ends with a letter, whatever stands before the instruction. Together this says
that different code has different listings (`eq_of_render_eq`).
-/

namespace TinyCompiler

/-! ### Runs -/

/-- A run of elements of one sort is found again in a list if it ends where the list ends or where
an element of another sort stands. -/
lemma eq_of_run_append_eq {α : Type} {P : α → Prop} {xs xs' ys ys' : List α}
    (hxs : ∀ a ∈ xs, P a) (hys : ∀ a ∈ ys.head?, ¬ P a) (hxs' : ∀ a ∈ xs', P a)
    (hys' : ∀ a ∈ ys'.head?, ¬ P a) (h : xs ++ ys = xs' ++ ys') : xs = xs' ∧ ys = ys' := by
  induction xs generalizing xs' with
  | nil =>
    cases xs' with
    | nil => exact ⟨rfl, h⟩
    | cons a xs' =>
      exfalso
      have hhead : ys.head? = some a := by
        rw [List.nil_append] at h
        rw [h, List.cons_append, List.head?_cons]
      exact hys a hhead (hxs' a List.mem_cons_self)
  | cons a xs ih =>
    cases xs' with
    | nil =>
      exfalso
      have hhead : ys'.head? = some a := by
        rw [List.nil_append] at h
        rw [← h, List.cons_append, List.head?_cons]
      exact hys' a hhead (hxs a List.mem_cons_self)
    | cons a' xs' =>
      obtain ⟨rfl, hrest⟩ := List.cons.inj h
      obtain ⟨rfl, rfl⟩ := ih (fun b hb => hxs b (List.mem_cons_of_mem _ hb))
        (fun b hb => hxs' b (List.mem_cons_of_mem _ hb)) hrest
      exact ⟨rfl, rfl⟩

/-! ### Whole numbers -/

/-- A character that whole numbers are written with. -/
def IsNumeralChar (c : Char) : Prop := c = '-' ∨ c.isDigit = true

lemma toList_toString_natCast (n : Nat) : (toString (n : Int)).toList = Nat.toDigits 10 n := by
  have htext : toString (n : Int) = toString n := rfl
  rw [htext, Nat.toString_eq_ofList_toDigits, String.toList_ofList]

lemma toList_toString_negSucc (n : Nat) :
    (toString (Int.negSucc n)).toList = '-' :: Nat.toDigits 10 (n + 1) := by
  have htext : toString (Int.negSucc n) = "-" ++ toString (n + 1) := rfl
  rw [htext, Nat.toString_eq_ofList_toDigits]
  simp

lemma isNumeralChar_of_mem_toString {n : Int} {c : Char} (h : c ∈ (toString n).toList) :
    IsNumeralChar c := by
  have hdigit : ∀ {m : Nat}, c ∈ Nat.toDigits 10 m → c.isDigit = true :=
    fun hc => Nat.isDigit_of_mem_toDigits (by omega) (by omega) hc
  cases n with
  | ofNat n =>
    rw [Int.ofNat_eq_natCast, toList_toString_natCast] at h
    exact .inr (hdigit h)
  | negSucc n =>
    rw [toList_toString_negSucc] at h
    rcases List.mem_cons.mp h with hc | hc
    · exact .inl hc
    · exact .inr (hdigit hc)

/-- The digits of a number tell the number. -/
lemma eq_of_toDigits_eq {m n : Nat} (h : Nat.toDigits 10 m = Nat.toDigits 10 n) : m = n := by
  have hvalue := congrArg (fun ds => Nat.ofDigitChars 10 ds 0) h
  simpa using hvalue

/-- A whole number is known from its text. -/
lemma eq_of_toString_eq {m n : Int} (h : (toString m).toList = (toString n).toList) : m = n := by
  have hsign : ∀ k l : Nat, Nat.toDigits 10 k ≠ '-' :: Nat.toDigits 10 l := by
    intro k l heq
    have hmem : '-' ∈ Nat.toDigits 10 k := by
      rw [heq]
      exact List.mem_cons_self
    have := Nat.isDigit_of_mem_toDigits (by omega) (by omega) hmem
    revert this
    decide
  cases m with
  | ofNat m =>
    cases n with
    | ofNat n =>
      simp only [Int.ofNat_eq_natCast, toList_toString_natCast] at h
      rw [eq_of_toDigits_eq h]
    | negSucc n =>
      rw [Int.ofNat_eq_natCast, toList_toString_natCast, toList_toString_negSucc] at h
      exact absurd h (hsign _ _)
  | negSucc m =>
    cases n with
    | ofNat n =>
      rw [Int.ofNat_eq_natCast, toList_toString_natCast, toList_toString_negSucc] at h
      exact absurd h.symm (hsign _ _)
    | negSucc n =>
      rw [toList_toString_negSucc, toList_toString_negSucc] at h
      have hsucc := eq_of_toDigits_eq (List.cons.inj h).2
      rw [Nat.succ.inj hsucc]

/-- A whole number is known from a text that it begins, if nothing that could belong to it
follows. -/
lemma eq_of_toString_append_eq {m n : Int} {u v : List Char}
    (hu : ∀ c ∈ u.head?, ¬ IsNumeralChar c) (hv : ∀ c ∈ v.head?, ¬ IsNumeralChar c)
    (h : (toString m).toList ++ u = (toString n).toList ++ v) : m = n ∧ u = v := by
  obtain ⟨htext, hrest⟩ := eq_of_run_append_eq (fun _ => isNumeralChar_of_mem_toString) hu
    (fun _ => isNumeralChar_of_mem_toString) hv h
  exact ⟨eq_of_toString_eq htext, hrest⟩

/-! ### Operands -/

/-- A name that a label can have in a listing: letters, numeric characters and underscores. -/
def IsLabelName (name : String) : Prop :=
  name ≠ "" ∧ ∀ c ∈ name.toList, Text.continuesWord c = true

instance (name : String) : Decidable (IsLabelName name) :=
  decidable_of_iff (name ≠ "" ∧ name.toList.all Text.continuesWord = true)
    (and_congr_right fun _ => List.all_eq_true)

namespace Operand

/-- The character that the text of an operand begins with, if it is no label. -/
def sign? : Operand → Option Char
  | .imm _ => some '$'
  | .reg _ => some '%'
  | .deref _ => some '('
  | .slot _ => some '-'
  | .label _ | .other _ => none

/-- An operand is no label of an unusual name. -/
def HasLabelName (o : Operand) : Prop := ∀ name ∈ o.label?, IsLabelName name

end Operand

/-- The character itself, if it is one that an operand other than a label begins with. -/
def operandSign? (c : Char) : Option Char := if c ∈ ['$', '%', '(', '-'] then some c else none

lemma operandSign?_of_continuesWord {c : Char} (h : Text.continuesWord c = true) :
    operandSign? c = none := by
  rw [operandSign?, if_neg]
  intro hmem
  have hsigns : ['$', '%', '(', '-'].all (fun d => !Text.continuesWord d) = true := by
    decide +kernel
  have hc := List.all_eq_true.mp hsigns c hmem
  rw [h] at hc
  cases hc

namespace Layout

variable {layout : Layout} {o o' : Operand} {os os' : List Operand} {i i' : Instr} {text : String}

/-- The characters of an operand. -/
def operandChars (layout : Layout) : Operand → List Char
  | .imm value => '$' :: (toString value).toList
  | .reg index => '%' :: (toString index).toList
  | .deref index => '(' :: '%' :: ((toString index).toList ++ [')'])
  | .slot index =>
    '-' :: ((toString (layout.offset index)).toList ++
      '(' :: '%' :: (layout.frameRegister.toList ++ [')']))
  | .label name => name.toList
  | .other _ => []

lemma eq_toString_of_numberText {number : Int} (h : layout.numberText number = .ok text) :
    text = toString number := by
  rw [numberText] at h
  split at h
  · split at h
    · cases h
    · exact (Except.ok.inj h).symm
  · exact (Except.ok.inj h).symm

lemma toList_of_operandText (h : layout.operandText o = .ok text) :
    text.toList = layout.operandChars o := by
  cases o with
  | imm | reg | deref | slot =>
    rw [operandText, bind_eq_ok_iff] at h
    obtain ⟨number, hnumber, h⟩ := h
    obtain rfl := eq_toString_of_numberText hnumber
    obtain rfl := Except.ok.inj h
    simp [operandChars]
  | label name =>
    obtain rfl := Except.ok.inj h
    rfl
  | other shown => cases h

/-- The first character of an operand tells its sort. -/
lemma exists_operandChars_eq_cons (ho : layout.PrintsOperand o) (hname : o.HasLabelName) :
    ∃ c rest, layout.operandChars o = c :: rest ∧ operandSign? c = o.sign? := by
  cases o with
  | imm value => exact ⟨'$', _, rfl, rfl⟩
  | reg index => exact ⟨'%', _, rfl, rfl⟩
  | deref index => exact ⟨'(', _, rfl, rfl⟩
  | slot index => exact ⟨'-', _, rfl, rfl⟩
  | label name =>
    obtain ⟨hne, hword⟩ := hname name rfl
    have hchars : name.toList ≠ [] := by
      intro hnil
      exact hne (String.toList_inj.mp hnil)
    obtain ⟨c, rest, hcons⟩ := List.exists_cons_of_ne_nil hchars
    refine ⟨c, rest, hcons, operandSign?_of_continuesWord (hword c ?_)⟩
    rw [hcons]
    exact List.mem_cons_self
  | other shown =>
    obtain ⟨text, htext⟩ := ho
    cases htext

/-- What stands after an operand: nothing, or a comma and another operand. -/
def FollowsOperand (u : List Char) : Prop := ∀ c ∈ u.head?, c = ','

lemma FollowsOperand.not_isNumeralChar {u : List Char} (h : FollowsOperand u) :
    ∀ c ∈ u.head?, ¬ IsNumeralChar c := by
  intro c hc
  rw [h c hc, IsNumeralChar]
  decide

lemma FollowsOperand.not_continuesWord {u : List Char} (h : FollowsOperand u) :
    ∀ c ∈ u.head?, ¬ Text.continuesWord c = true := by
  intro c hc
  rw [h c hc]
  decide +kernel

/-- Different places have different offsets. -/
lemma eq_of_offset_eq (hsize : 0 < layout.slotSize) {m n : Int}
    (h : layout.offset m = layout.offset n) : m = n := by
  have hcancel := Int.eq_of_mul_eq_mul_right (Int.ne_of_gt hsize) h
  omega

/-- An operand is known from a text that it begins. -/
lemma eq_of_operandChars_append_eq (hsize : 0 < layout.slotSize) (ho : layout.PrintsOperand o)
    (ho' : layout.PrintsOperand o') (hname : o.HasLabelName) (hname' : o'.HasLabelName)
    {u v : List Char} (hu : FollowsOperand u) (hv : FollowsOperand v)
    (h : layout.operandChars o ++ u = layout.operandChars o' ++ v) : o = o' ∧ u = v := by
  have hsign : o.sign? = o'.sign? := by
    obtain ⟨c, rest, hcons, hc⟩ := exists_operandChars_eq_cons ho hname
    obtain ⟨c', rest', hcons', hc'⟩ := exists_operandChars_eq_cons ho' hname'
    rw [hcons, hcons', List.cons_append, List.cons_append] at h
    rw [← hc, ← hc', (List.cons.inj h).1]
  -- a closing or an opening parenthesis ends a number as well
  have hparen : ∀ c : Char, c = '(' ∨ c = ')' → ¬ IsNumeralChar c := by
    rintro c (rfl | rfl) <;> rw [IsNumeralChar] <;> decide
  have hclose : ∀ w : List Char, ∀ c ∈ (')' :: w).head?, ¬ IsNumeralChar c := by
    rintro w c ⟨⟩
    exact hparen ')' (.inr rfl)
  have hopen : ∀ w : List Char, ∀ c ∈ ('(' :: w).head?, ¬ IsNumeralChar c := by
    rintro w c ⟨⟩
    exact hparen '(' (.inl rfl)
  cases o with
  | imm m =>
    cases o' with
    | imm n =>
      obtain ⟨rfl, rfl⟩ := eq_of_toString_append_eq hu.not_isNumeralChar hv.not_isNumeralChar
        (List.cons.inj h).2
      exact ⟨rfl, rfl⟩
    | reg | deref | slot | label | other => cases hsign
  | reg m =>
    cases o' with
    | reg n =>
      obtain ⟨rfl, rfl⟩ := eq_of_toString_append_eq hu.not_isNumeralChar hv.not_isNumeralChar
        (List.cons.inj h).2
      exact ⟨rfl, rfl⟩
    | imm | deref | slot | label | other => cases hsign
  | deref m =>
    cases o' with
    | deref n =>
      simp only [operandChars, List.cons_append, List.cons.injEq, true_and, List.append_assoc,
        List.nil_append] at h
      obtain ⟨rfl, hrest⟩ := eq_of_toString_append_eq (hclose u) (hclose v) h
      exact ⟨rfl, (List.cons.inj hrest).2⟩
    | imm | reg | slot | label | other => cases hsign
  | slot m =>
    cases o' with
    | slot n =>
      simp only [operandChars, List.cons_append, List.cons.injEq, true_and, List.append_assoc,
        List.nil_append] at h
      obtain ⟨hoffset, hrest⟩ := eq_of_toString_append_eq (hopen _) (hopen _) h
      obtain rfl := eq_of_offset_eq hsize hoffset
      -- the frame register is the same on both sides, whatever characters it has
      have hframe := (List.cons.inj (List.cons.inj hrest).2).2
      have hafter := List.append_cancel_left hframe
      exact ⟨rfl, (List.cons.inj hafter).2⟩
    | imm | reg | deref | label | other => cases hsign
  | label name =>
    cases o' with
    | label name' =>
      obtain ⟨htext, rfl⟩ := eq_of_run_append_eq (hname name rfl).2 hu.not_continuesWord
        (hname' name' rfl).2 hv.not_continuesWord h
      rw [String.toList_inj.mp htext]
      exact ⟨rfl, rfl⟩
    | other shown =>
      obtain ⟨text, htext⟩ := ho'
      cases htext
    | imm | reg | deref | slot => cases hsign
  | other shown =>
    obtain ⟨text, htext⟩ := ho
    cases htext

/-! ### Rows of operands -/

/-- The characters of operands, each with a comma and a space before it. -/
def rowChars (layout : Layout) : List Operand → List Char
  | [] => []
  | o :: os => ',' :: ' ' :: (layout.operandChars o ++ layout.rowChars os)

lemma followsOperand_rowChars (os : List Operand) : FollowsOperand (layout.rowChars os) := by
  cases os with
  | nil => simp [FollowsOperand, rowChars]
  | cons o os => simp [FollowsOperand, rowChars]

/-- Operands are known from their row. -/
lemma eq_of_rowChars_eq (hsize : 0 < layout.slotSize) (hos : ∀ o ∈ os, layout.PrintsOperand o)
    (hos' : ∀ o ∈ os', layout.PrintsOperand o) (hnames : ∀ o ∈ os, o.HasLabelName)
    (hnames' : ∀ o ∈ os', o.HasLabelName) (h : layout.rowChars os = layout.rowChars os') :
    os = os' := by
  induction os generalizing os' with
  | nil =>
    cases os' with
    | nil => rfl
    | cons o' os' => cases h
  | cons o os ih =>
    cases os' with
    | nil => cases h
    | cons o' os' =>
      have hchars := (List.cons.inj (List.cons.inj h).2).2
      obtain ⟨rfl, hrest⟩ := eq_of_operandChars_append_eq hsize (hos o List.mem_cons_self)
        (hos' o' List.mem_cons_self) (hnames o List.mem_cons_self) (hnames' o' List.mem_cons_self)
        (followsOperand_rowChars os) (followsOperand_rowChars os') hchars
      rw [ih (fun a ha => hos a (List.mem_cons_of_mem _ ha))
        (fun a ha => hos' a (List.mem_cons_of_mem _ ha))
        (fun a ha => hnames a (List.mem_cons_of_mem _ ha))
        (fun a ha => hnames' a (List.mem_cons_of_mem _ ha)) hrest]

/-- Operands are known from what is printed of their row, which lacks the first comma. -/
lemma rowChars_eq_of_tail_eq (h : (layout.rowChars os).tail = (layout.rowChars os').tail) :
    layout.rowChars os = layout.rowChars os' := by
  cases os with
  | nil =>
    cases os' with
    | nil => rfl
    | cons o' os' => cases h
  | cons o os =>
    cases os' with
    | nil => cases h
    | cons o' os' => exact congrArg (List.cons ',') h

lemma exists_of_mapM_cons {texts : List String}
    (h : (o :: os).mapM layout.operandText = .ok texts) :
    ∃ text rest, layout.operandText o = .ok text ∧ os.mapM layout.operandText = .ok rest ∧
      texts = text :: rest := by
  rw [List.mapM_cons, bind_eq_ok_iff] at h
  obtain ⟨text, htext, h⟩ := h
  rw [bind_eq_ok_iff] at h
  obtain ⟨rest, hrest, h⟩ := h
  exact ⟨text, rest, htext, hrest, (Except.ok.inj h).symm⟩

/-- Operands that are printed one after the other are a row without its first comma and space. -/
lemma toList_intercalate_of_mapM {texts : List String}
    (h : (o :: os).mapM layout.operandText = .ok texts) :
    (", ".intercalate texts).toList = layout.operandChars o ++ layout.rowChars os ∧
      ∀ a ∈ o :: os, layout.PrintsOperand a := by
  induction os generalizing o texts with
  | nil =>
    obtain ⟨text, rest, htext, hrest, rfl⟩ := exists_of_mapM_cons h
    obtain rfl : rest = [] := (Except.ok.inj hrest).symm
    constructor
    · rw [String.intercalate_singleton, toList_of_operandText htext, rowChars, List.append_nil]
    · intro a ha
      rw [List.mem_singleton.mp ha]
      exact ⟨text, htext⟩
  | cons o' os ih =>
    obtain ⟨text, rest, htext, hrest, rfl⟩ := exists_of_mapM_cons h
    obtain ⟨hrow, hprints⟩ := ih hrest
    obtain ⟨text', rest', -, -, rfl⟩ := exists_of_mapM_cons hrest
    constructor
    · rw [String.intercalate_cons_cons, String.toList_append, String.toList_append, hrow,
        toList_of_operandText htext, List.append_assoc]
      rfl
    · intro a ha
      rcases List.mem_cons.mp ha with rfl | ha
      · exact ⟨text, htext⟩
      · exact hprints a ha

end Layout

/-! ### Instructions -/

namespace Instr

/-- The name of an instruction in a listing. -/
def mnemonic? : Instr → Option String
  | .binOp _ op _ => op.map Op.mnemonic
  | .unOp op _ => op.unaryMnemonic?
  | .mov _ _ => some "movq"
  | .cmp _ _ => some "cmp"
  | .jmp _ => some "jmp"
  | .jez _ => some "jez"
  | .call _ => some "call"
  | .ret => some "ret"
  | .other _ => none

/-- The instruction of a name and its operands. -/
def ofParts? : String → List Operand → Option Instr
  | "addq", [lhs, rhs] => some (.binOp lhs (some .add) rhs)
  | "subq", [lhs, rhs] => some (.binOp lhs (some .sub) rhs)
  | "mulq", [lhs, rhs] => some (.binOp lhs (some .mul) rhs)
  | "divq", [lhs, rhs] => some (.binOp lhs (some .div) rhs)
  | "negq", [operand] => some (.unOp .sub operand)
  | "movq", [src, dst] => some (.mov src dst)
  | "cmp", [a, b] => some (.cmp a b)
  | "jmp", [target] => some (.jmp target)
  | "jez", [target] => some (.jez target)
  | "call", [target] => some (.call target)
  | "ret", [] => some .ret
  | _, _ => none

variable {i i' : Instr} {mnemonic : String}

/-- An instruction is known from its name and its operands. -/
lemma ofParts?_operands (h : i.mnemonic? = some mnemonic) :
    ofParts? mnemonic i.operands = some i := by
  cases i with
  | binOp lhs op rhs =>
    cases op with
    | none => cases h
    | some op =>
      obtain rfl := Option.some.inj h
      cases op <;> rfl
  | unOp op operand =>
    cases op with
    | sub =>
      obtain rfl := Option.some.inj h
      rfl
    | add | mul | div => cases h
  | mov | cmp | jmp | jez | call | ret =>
    obtain rfl := Option.some.inj h
    rfl
  | other shown => cases h

/-- No space is in the name of an instruction. -/
lemma space_not_mem_mnemonic (h : i.mnemonic? = some mnemonic) : ' ' ∉ mnemonic.toList := by
  cases i with
  | binOp lhs op rhs =>
    cases op with
    | none => cases h
    | some op =>
      obtain rfl := Option.some.inj h
      cases op <;> decide
  | unOp op operand =>
    cases op with
    | sub =>
      obtain rfl := Option.some.inj h
      decide
    | add | mul | div => cases h
  | mov | cmp | jmp | jez | call | ret =>
    obtain rfl := Option.some.inj h
    decide
  | other shown => cases h

/-- Only the instruction that ends a function has no operands. -/
lemma mnemonic_of_operands_eq_nil (h : i.mnemonic? = some mnemonic) (hoperands : i.operands = []) :
    mnemonic = "ret" := by
  cases i with
  | ret => exact (Option.some.inj h).symm
  | other shown => cases h
  | binOp | unOp | mov | cmp | jmp | jez | call => cases hoperands

end Instr

namespace Layout

variable {layout : Layout} {i i' : Instr} {text : String}

lemma toList_of_withOperands {mnemonic : String} {o : Operand} {os : List Operand}
    (h : layout.withOperands mnemonic (o :: os) = .ok text) :
    text.toList = mnemonic.toList ++ (layout.rowChars (o :: os)).tail ∧
      ∀ a ∈ o :: os, layout.PrintsOperand a := by
  rw [withOperands, bind_eq_ok_iff] at h
  obtain ⟨texts, htexts, h⟩ := h
  obtain ⟨hrow, hprints⟩ := toList_intercalate_of_mapM htexts
  obtain rfl := Except.ok.inj h
  refine ⟨?_, hprints⟩
  rw [String.toList_append, String.toList_append, hrow, List.append_assoc]
  rfl

/-- The text of an instruction is its name and the row of its operands. -/
lemma toList_of_instrText (h : layout.instrText i = .ok text) :
    ∃ mnemonic, i.mnemonic? = some mnemonic ∧
      text.toList = mnemonic.toList ++ (layout.rowChars i.operands).tail ∧
      ∀ o ∈ i.operands, layout.PrintsOperand o := by
  cases i with
  | binOp lhs op rhs =>
    cases op with
    | none => cases h
    | some op => exact ⟨op.mnemonic, rfl, toList_of_withOperands h⟩
  | unOp op operand =>
    cases op with
    | sub => exact ⟨"negq", rfl, toList_of_withOperands h⟩
    | add | mul | div => cases h
  | mov src dst => exact ⟨"movq", rfl, toList_of_withOperands h⟩
  | cmp a b => exact ⟨"cmp", rfl, toList_of_withOperands h⟩
  | jmp target => exact ⟨"jmp", rfl, toList_of_withOperands h⟩
  | jez target => exact ⟨"jez", rfl, toList_of_withOperands h⟩
  | call target => exact ⟨"call", rfl, toList_of_withOperands h⟩
  | ret =>
    obtain rfl := Except.ok.inj h
    exact ⟨"ret", rfl, rfl, by simp [Instr.operands]⟩
  | other shown => cases h

/-- A row that is printed begins with a space. -/
lemma eq_space_of_head?_tail {os : List Operand} {c : Char}
    (h : c ∈ (layout.rowChars os).tail.head?) : c = ' ' := by
  cases os with
  | nil => cases h
  | cons o os => exact (Option.some.inj h).symm

/-- An instruction is known from its text. -/
lemma eq_of_instrText_eq (hsize : 0 < layout.slotSize) (hnames : ∀ o ∈ i.operands, o.HasLabelName)
    (hnames' : ∀ o ∈ i'.operands, o.HasLabelName) (h : layout.instrText i = .ok text)
    (h' : layout.instrText i' = .ok text) : i = i' := by
  obtain ⟨mnemonic, hmnemonic, htext, hprints⟩ := toList_of_instrText h
  obtain ⟨mnemonic', hmnemonic', htext', hprints'⟩ := toList_of_instrText h'
  have hno : ∀ {j : Instr} {m : String}, j.mnemonic? = some m → ∀ c ∈ m.toList, c ≠ ' ' := by
    intro j m hm c hc hspace
    rw [hspace] at hc
    exact Instr.space_not_mem_mnemonic hm hc
  have hspace : ∀ os : List Operand, ∀ c ∈ (layout.rowChars os).tail.head?, ¬ c ≠ ' ' :=
    fun os c hc hne => hne (eq_space_of_head?_tail hc)
  obtain ⟨hname, htail⟩ := eq_of_run_append_eq (hno hmnemonic) (hspace i.operands)
    (hno hmnemonic') (hspace i'.operands) (htext.symm.trans htext')
  have hoperands := eq_of_rowChars_eq hsize hprints hprints' hnames hnames'
    (rowChars_eq_of_tail_eq htail)
  have hparts := Instr.ofParts?_operands hmnemonic
  rw [String.toList_inj.mp hname, hoperands, Instr.ofParts?_operands hmnemonic'] at hparts
  exact (Option.some.inj hparts).symm

/-! ### Lines -/

/-- What lines of labels are like: they have no space in them and end with a colon. -/
def IsLabelLine (line : String) : Prop := ' ' ∉ line.toList ∧ line.toList.getLast? = some ':'

lemma isLabelLine_labelLine {label : String × Int} (h : IsLabelName label.1) :
    IsLabelLine (labelLine label) := by
  have hline : (labelLine label).toList = label.1.toList ++ [':'] := by simp [labelLine]
  rw [IsLabelLine, hline]
  refine ⟨fun hspace => ?_, List.getLast?_concat⟩
  rcases List.mem_append.mp hspace with hmem | hmem
  · exact absurd (h.2 ' ' hmem) (by decide +kernel)
  · exact absurd (List.mem_singleton.mp hmem) (by decide)

/-- The line of an instruction is not like one of a label, whatever stands before the
instruction. -/
lemma not_isLabelLine_of_instrText (h : layout.instrText i = .ok text) :
    ¬ IsLabelLine (layout.indent ++ text) := by
  obtain ⟨mnemonic, hmnemonic, htext, -⟩ := toList_of_instrText h
  rintro ⟨hspace, hlast⟩
  rw [String.toList_append, htext] at hspace hlast
  cases hoperands : i.operands with
  | nil =>
    -- nothing but the name, which ends with a letter
    rw [Instr.mnemonic_of_operands_eq_nil hmnemonic hoperands, hoperands] at hlast
    have hret : layout.indent.toList ++ ("ret".toList ++ (layout.rowChars []).tail) =
        (layout.indent.toList ++ ['r', 'e']) ++ ['t'] := by simp [rowChars]
    rw [hret, List.getLast?_concat] at hlast
    exact absurd (Option.some.inj hlast) (by decide)
  | cons o os =>
    rw [hoperands] at hspace
    refine hspace (List.mem_append_right _ (List.mem_append_right _ ?_))
    exact List.mem_cons_self

/-! ### Labels in order -/

/-- Labels in the order in which they are printed, with names for listings and places from `low` to
`high`. -/
structure LabelsWithin (low high : Int) (labels : Table Int) : Prop where
  names : ∀ label ∈ labels, IsLabelName label.1
  sorted : labels.Pairwise fun a b => a.2 ≤ b.2
  bounded : ∀ label ∈ labels, low ≤ label.2 ∧ label.2 ≤ high

variable {low high index : Int} {labels labels' : Table Int}

/-- The labels that come before the next instruction are those of its place. -/
lemma LabelsWithin.eq_low (h : LabelsWithin low high labels) :
    ∀ label ∈ labels.takeWhile (·.2 ≤ low), label.2 = low := by
  intro label hlabel
  have hle : label.2 ≤ low := by simpa using List.mem_takeWhile_imp hlabel
  have hge := (h.bounded label ((List.takeWhile_sublist _).subset hlabel)).1
  omega

/-- The labels that are left are those of later places. -/
lemma LabelsWithin.later (h : LabelsWithin low high labels) :
    LabelsWithin (low + 1) high (labels.dropWhile (·.2 ≤ low)) := by
  have hsublist := List.dropWhile_sublist (l := labels) (·.2 ≤ low)
  have hsorted := h.sorted.sublist hsublist
  refine ⟨fun label hl => h.names label (hsublist.subset hl), hsorted, fun label hl => ?_⟩
  refine ⟨?_, (h.bounded label (hsublist.subset hl)).2⟩
  have hhead := List.head?_dropWhile_not (p := fun label : String × Int => label.2 ≤ low) labels
  cases hdrop : labels.dropWhile (·.2 ≤ low) with
  | nil =>
    rw [hdrop] at hl
    cases hl
  | cons first rest =>
    rw [hdrop] at hl hsorted hhead
    have hfirst : low < first.2 := by simpa using hhead
    rcases List.mem_cons.mp hl with rfl | hl
    · omega
    · have := List.rel_of_pairwise_cons hsorted hl
      omega

/-- Labels of one place are known from their lines. -/
lemma eq_of_map_labelLine_eq (h : ∀ label ∈ labels, label.2 = index)
    (h' : ∀ label ∈ labels', label.2 = index)
    (hlines : labels.map labelLine = labels'.map labelLine) :
    labels = labels' := by
  induction labels generalizing labels' with
  | nil =>
    cases labels' with
    | nil => rfl
    | cons label' labels' => cases hlines
  | cons label labels ih =>
    cases labels' with
    | nil => cases hlines
    | cons label' labels' =>
      obtain ⟨hline, hrest⟩ := List.cons.inj hlines
      have hname : label.1 = label'.1 := by
        have htext := congrArg String.toList hline
        simp only [labelLine, String.toList_append] at htext
        exact String.toList_inj.mp (List.append_cancel_right htext)
      have hplace : label.2 = label'.2 :=
        (h label List.mem_cons_self).trans (h' label' List.mem_cons_self).symm
      rw [Prod.ext hname hplace, ih (fun l hl => h l (List.mem_cons_of_mem _ hl))
        (fun l hl => h' l (List.mem_cons_of_mem _ hl)) hrest]

/-! ### Listings -/

variable {is is' : List Instr} {lines : List String}

lemma exists_of_weave_cons (h : layout.weave index (i :: is) labels = .ok lines) :
    ∃ text rest, layout.instrText i = .ok text ∧
      layout.weave (index + 1) is (labels.dropWhile (·.2 ≤ index)) = .ok rest ∧
      lines =
        (labels.takeWhile (·.2 ≤ index)).map labelLine ++ (layout.indent ++ text) :: rest := by
  rw [weave, bind_eq_ok_iff] at h
  obtain ⟨text, htext, h⟩ := h
  rw [bind_eq_ok_iff] at h
  obtain ⟨rest, hrest, h⟩ := h
  exact ⟨text, rest, htext, hrest, (Except.ok.inj h).symm⟩

lemma LabelsWithin.isLabelLine (h : LabelsWithin low high labels) :
    ∀ line ∈ labels.map labelLine, IsLabelLine line := by
  intro line hline
  obtain ⟨label, hlabel, rfl⟩ := List.mem_map.mp hline
  exact isLabelLine_labelLine (h.names label hlabel)

/-- Lines of labels alone are not those of an instruction. -/
lemma weave_cons_ne (hlabels : LabelsWithin low high labels)
    (h : layout.weave index (i :: is) labels' = .ok lines) : labels.map labelLine ≠ lines := by
  rintro rfl
  obtain ⟨text, rest, htext, -, hlines⟩ := exists_of_weave_cons h
  refine not_isLabelLine_of_instrText htext (hlabels.isLabelLine _ ?_)
  rw [hlines]
  exact List.mem_append_right _ List.mem_cons_self

/-- Instructions and labels are known from the lines into which they are woven. -/
lemma eq_of_weave_eq (hsize : 0 < layout.slotSize)
    (hnames : ∀ i ∈ is, ∀ o ∈ i.operands, o.HasLabelName)
    (hnames' : ∀ i ∈ is', ∀ o ∈ i.operands, o.HasLabelName)
    (hlabels : LabelsWithin index (index + is.length) labels)
    (hlabels' : LabelsWithin index (index + is'.length) labels')
    (h : layout.weave index is labels = .ok lines)
    (h' : layout.weave index is' labels' = .ok lines) : is = is' ∧ labels = labels' := by
  induction is generalizing index is' labels labels' lines with
  | nil =>
    have hlines := Except.ok.inj h
    cases is' with
    | nil =>
      -- all labels that are left are those of the end
      have hend : ∀ {ls : Table Int}, LabelsWithin index (index + ([] : List Instr).length) ls →
          ∀ label ∈ ls, label.2 = index := by
        intro ls hls label hlabel
        have hbounded := hls.bounded label hlabel
        simp only [List.length_nil] at hbounded
        omega
      have hlines' := Except.ok.inj h'
      exact ⟨rfl, eq_of_map_labelLine_eq (hend hlabels) (hend hlabels') (hlines.trans hlines'.symm)⟩
    | cons i' is' => exact absurd hlines (weave_cons_ne hlabels h')
  | cons i is ih =>
    cases is' with
    | nil => exact absurd (Except.ok.inj h') (weave_cons_ne hlabels' h)
    | cons i' is' =>
      obtain ⟨text, rest, htext, hrest, rfl⟩ := exists_of_weave_cons h
      obtain ⟨text', rest', htext', hrest', hlines⟩ := exists_of_weave_cons h'
      have hbefore : ∀ {high : Int} {ls : Table Int}, LabelsWithin index high ls →
          ∀ line ∈ (ls.takeWhile (·.2 ≤ index)).map labelLine, IsLabelLine line := by
        intro high ls hls line hline
        exact hls.isLabelLine line (((List.takeWhile_sublist _).map _).subset hline)
      have hinstr : ∀ {j : Instr} {t : String} {ts : List String}, layout.instrText j = .ok t →
          ∀ line ∈ ((layout.indent ++ t) :: ts).head?, ¬ IsLabelLine line := by
        rintro j t ts ht line ⟨⟩
        exact not_isLabelLine_of_instrText ht
      -- the lines of labels are a run that ends before the line of the instruction
      obtain ⟨hfirst, hafter⟩ := eq_of_run_append_eq (hbefore hlabels) (hinstr htext)
        (hbefore hlabels') (hinstr htext') hlines
      obtain ⟨hline, rfl⟩ := List.cons.inj hafter
      have htexts : text = text' := by
        have hchars := congrArg String.toList hline
        rw [String.toList_append, String.toList_append] at hchars
        exact String.toList_inj.mp (List.append_cancel_left hchars)
      rw [← htexts] at htext'
      obtain rfl := eq_of_instrText_eq hsize (hnames i List.mem_cons_self)
        (hnames' i' List.mem_cons_self) htext htext'
      have hlength : ∀ js : List Instr,
          index + ((i :: js).length : Int) = index + 1 + js.length := by
        intro js
        simp only [List.length_cons]
        omega
      have hlater := hlabels.later
      have hlater' := hlabels'.later
      rw [hlength] at hlater hlater'
      obtain ⟨rfl, hdrop⟩ := ih (fun j hj => hnames j (List.mem_cons_of_mem _ hj))
        (fun j hj => hnames' j (List.mem_cons_of_mem _ hj)) hlater hlater' hrest hrest'
      have htake := eq_of_map_labelLine_eq hlabels.eq_low hlabels'.eq_low hfirst
      refine ⟨rfl, ?_⟩
      rw [← List.takeWhile_append_dropWhile (p := fun label : String × Int => label.2 ≤ index)
        (l := labels), htake, hdrop, List.takeWhile_append_dropWhile]

end Layout

/-! ### Code -/

namespace Code

/-- Code as listings can show it: all labels have names for listings, and each marks an instruction
or the end. -/
structure IsLegible (c : Code) : Prop where
  bound_names : ∀ label ∈ c.labels, IsLabelName label.1
  used_names : ∀ name ∈ c.referencedLabels, IsLabelName name
  bounded : ∀ label ∈ c.labels, 0 ≤ label.2 ∧ label.2 ≤ c.instrs.length

variable {c : Code}

lemma IsLegible.hasLabelName (h : c.IsLegible) :
    ∀ i ∈ c.instrs, ∀ o ∈ i.operands, o.HasLabelName := by
  intro i hi o ho name hname
  refine h.used_names name (List.mem_eraseDups.mpr (List.mem_flatMap.mpr ⟨i, hi, ?_⟩))
  exact List.mem_filterMap.mpr ⟨o, ho, hname⟩

lemma le_trans_of_place (a b d : String × Int) (hab : decide (a.2 ≤ b.2) = true)
    (hbd : decide (b.2 ≤ d.2) = true) : decide (a.2 ≤ d.2) = true := by
  simp only [decide_eq_true_eq] at hab hbd ⊢
  omega

lemma le_total_of_place (a b : String × Int) :
    (decide (a.2 ≤ b.2) || decide (b.2 ≤ a.2)) = true := by
  simp only [Bool.or_eq_true, decide_eq_true_eq]
  omega

lemma pairwise_printedLabels (labels : Table Int) :
    (Layout.printedLabels labels).Pairwise fun a b => a.2 ≤ b.2 := by
  have hsorted := List.pairwise_mergeSort le_trans_of_place le_total_of_place
    (labels.filter fun label => 0 ≤ label.2)
  exact hsorted.imp (by simp)

lemma IsLegible.labelsWithin (h : c.IsLegible) :
    Layout.LabelsWithin 0 (0 + c.instrs.length) (Layout.printedLabels c.labels) := by
  have hmem : ∀ label ∈ Layout.printedLabels c.labels, label ∈ c.labels := by
    intro label hlabel
    exact (List.mem_filter.mp (List.mem_mergeSort.mp hlabel)).1
  refine ⟨fun label hl => h.bound_names label (hmem label hl), pairwise_printedLabels _,
    fun label hl => ?_⟩
  have hbounded := h.bounded label (hmem label hl)
  omega

/-- Sorting by place leaves the labels of one place in their order. -/
lemma filter_mergeSort (labels : Table Int) (index : Int) :
    (labels.mergeSort fun a b => a.2 ≤ b.2).filter (·.2 == index) =
      labels.filter (·.2 == index) := by
  have hpairwise : (labels.filter (·.2 == index)).Pairwise
      fun a b => decide (a.2 ≤ b.2) = true := by
    refine List.pairwise_of_forall_mem_list fun a ha b hb => ?_
    have hplace : a.2 = index := by simpa using (List.mem_filter.mp ha).2
    have hplace' : b.2 = index := by simpa using (List.mem_filter.mp hb).2
    simp only [decide_eq_true_eq]
    omega
  -- labels of one place are in order already, and sorting keeps what is in order
  have hsublist : (labels.filter (·.2 == index)).Sublist
      ((labels.mergeSort fun a b => a.2 ≤ b.2).filter (·.2 == index)) := by
    have hstable := List.sublist_mergeSort le_trans_of_place le_total_of_place hpairwise
      List.filter_sublist
    have hfilter := hstable.filter (·.2 == index)
    rw [List.filter_filter] at hfilter
    simpa using hfilter
  have hlength : (labels.filter (·.2 == index)).length =
      ((labels.mergeSort fun a b => a.2 ≤ b.2).filter (·.2 == index)).length :=
    ((List.mergeSort_perm labels _).filter _).length_eq.symm
  exact (hsublist.eq_of_length hlength).symm

/-- The labels of a place are printed in the order in which they were bound. -/
lemma IsLegible.labelsAt_eq (h : c.IsLegible) (index : Int) :
    c.labelsAt index = ((Layout.printedLabels c.labels).filter (·.2 == index)).map (·.1) := by
  have hall : (c.labels.filter fun label => 0 ≤ label.2) = c.labels :=
    List.filter_eq_self.mpr fun label hlabel => by simpa using (h.bounded label hlabel).1
  rw [labelsAt, Layout.printedLabels, hall, filter_mergeSort]

end Code

lemma Layout.weave_printedLabels {layout : Layout} {c : Code} {lines : List String}
    (h : layout.render c = .ok lines) :
    layout.weave 0 c.instrs (printedLabels c.labels) = .ok lines := by
  rw [render] at h
  split at h
  next => cases h
  next => exact eq_ok_of_mapError h

/-- Code is known from its listing. Whatever the layout, as long as variables take some room, two
codes with the same listing have the same instructions, and each place has the same labels in the
same order. -/
theorem eq_of_render_eq (layout : Layout) (hsize : 0 < layout.slotSize) (c d : Code)
    (hc : c.IsLegible) (hd : d.IsLegible) (lines : List String)
    (hrender : layout.render c = .ok lines) (hrender' : layout.render d = .ok lines) :
    c.instrs = d.instrs ∧ ∀ index, c.labelsAt index = d.labelsAt index := by
  obtain ⟨hinstrs, hlabels⟩ := Layout.eq_of_weave_eq hsize hc.hasLabelName hd.hasLabelName
    hc.labelsWithin hd.labelsWithin (Layout.weave_printedLabels hrender)
    (Layout.weave_printedLabels hrender')
  refine ⟨hinstrs, fun index => ?_⟩
  rw [hc.labelsAt_eq, hd.labelsAt_eq, hlabels]

/-- A layout whose frame register looks like the end of one operand and the start of another. -/
def Layout.misleading : Layout := ⟨3, "x), $1", "", none⟩

/-- A jump to the end, with the given labels. -/
def jumpToEnd (labels : Table Int) : Code :=
  ⟨[.mov (.slot 0) (.slot (-5)), .jez (.label "end"), .call (.label "f")], labels, []⟩

/-- The lines of the jump, in which the first instruction has no indent. -/
def jumpLines : List String :=
  ["f:", "movq -3(%x), $1), --12(%x), $1)", "jez end", "call f", "end:", "_0:"]

/-- Labels that were bound in another order, and the same listing. -/
theorem eq_of_render_eq_jumpToEnd :
    let c := jumpToEnd [("f", 0), ("end", 3), ("_0", 3)]
    let d := jumpToEnd [("end", 3), ("f", 0), ("_0", 3)]
    c.IsLegible ∧ d.IsLegible ∧ Layout.misleading.render c = .ok jumpLines ∧
      Layout.misleading.render d = .ok jumpLines ∧
      c.instrs = d.instrs ∧ ∀ index, c.labelsAt index = d.labelsAt index := by
  have hc : (jumpToEnd [("f", 0), ("end", 3), ("_0", 3)]).IsLegible :=
    ⟨by decide +kernel, by decide +kernel, by decide +kernel⟩
  have hd : (jumpToEnd [("end", 3), ("f", 0), ("_0", 3)]).IsLegible :=
    ⟨by decide +kernel, by decide +kernel, by decide +kernel⟩
  have hrender : Layout.misleading.render (jumpToEnd [("f", 0), ("end", 3), ("_0", 3)]) =
      .ok jumpLines := by cbv
  have hrender' : Layout.misleading.render (jumpToEnd [("end", 3), ("f", 0), ("_0", 3)]) =
      .ok jumpLines := by cbv
  exact ⟨hc, hd, hrender, hrender',
    eq_of_render_eq Layout.misleading (by decide) _ _ hc hd _ hrender hrender'⟩

end TinyCompiler
