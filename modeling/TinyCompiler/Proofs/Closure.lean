import TinyCompiler.Proofs.Unambiguity

/-!
# Closed listings

A listing can be assembled if every label has one line, if that line stands at the label's place,
and if whatever is jumped to or called is a label of the listing. The first is a matter of the
builder: a label is bound only while it is free, so as many different labels are bound as there are
functions and conditionals (`Builder.BindsOnce`). The second is a matter of printing, which weaves
labels that are in order into the instructions (`Layout.exists_before_of_weave`). The last is what
the check of labels is for. That lines of labels and of instructions can be told apart at all comes
from the text: names of functions are words (`isLabelName_of_scan`). All of it holds of everything
that is compiled (`wellLabelled_of_compile`).
-/

namespace TinyCompiler

/-! ### Every label is bound once -/

/-- So many labels are bound, all different. -/
structure Builder.BindsOnce (count : Nat) (b : Builder) : Prop where
  nodup : b.labels.names.Nodup
  length_eq : b.labels.length = count

namespace Builder.BindsOnce

variable {b b' : Builder} {name : String} {count : Nat}

lemma empty (reserved : List String) : (Builder.empty reserved).BindsOnce 0 := ⟨.nil, rfl⟩

lemma of_keepsLabels (h : b.BindsOnce count) (hkeep : KeepsLabels b b') : b'.BindsOnce count := by
  refine ⟨?_, ?_⟩
  · rw [hkeep.labels]
    exact h.nodup
  · rw [hkeep.labels]
    exact h.length_eq

/-- One more label is bound if it is free. -/
lemma mark (h : b.BindsOnce count) (hfree : b.labels.get? name = none) :
    (b.mark name).BindsOnce (count + 1) := by
  have hnames : (b.mark name).labels.names = b.labels.names ++ [name] := by simp [Table.names]
  refine ⟨?_, ?_⟩
  · rw [hnames]
    exact List.nodup_append_comm.mp
      (List.nodup_cons.mpr ⟨Table.get?_eq_none_iff.mp hfree, h.nodup⟩)
  · rw [labels_mark, List.length_append, h.length_eq]
    rfl

end Builder.BindsOnce

section Lowering

variable {b b' : Builder} {count : Nat}

/-- Of all statements only a conditional binds a label. -/
lemma Lowers.bindsOnce_statement {n : Node} (h : Lowers (.statement n) b b')
    (hb : b.BindsOnce count) : b'.BindsOnce (count + [n].countP (·.kind = .conditional)) := by
  -- from the test of a conditional to the place after its first branch
  have hbranch : ∀ {b₁ b₂ b₃ : Builder} {label : String} {i j : Instr}, b.KeepsLabels b₁ →
      (b₁.append i).newLabel = (label, b₂) → (b₂.append j).KeepsLabels b₃ →
      b₃.labels.get? label = none → (b₃.mark label).BindsOnce (count + 1) := by
    intro b₁ b₂ b₃ label i j hcondition hlabel hthen hfree
    have hlabels : b₃.labels = b.labels := by
      rw [hthen.labels, Builder.labels_append, Builder.labels_of_newLabel hlabel,
        Builder.labels_append, hcondition.labels]
    exact Builder.BindsOnce.mark ⟨hlabels ▸ hb.nodup, hlabels ▸ hb.length_eq⟩ hfree
  cases h with
  | evaluate hvalue => exact hb.of_keepsLabels (hvalue.keepsLabels trivial)
  | @assign x _ _ _ _ hvalue =>
    have hplaced := (hvalue.keepsLabels trivial).trans (.slotFor _ x)
    exact hb.of_keepsLabels (hplaced.trans (.append _ _))
  | giveBack => exact hb.of_keepsLabels (.append _ _)
  | giveBackValue hvalue =>
    exact hb.of_keepsLabels ((hvalue.keepsLabels trivial).trans (.append _ _))
  | conditional hcondition hlabel hthen hfree =>
    exact hbranch (hcondition.keepsLabels trivial) hlabel (hthen.keepsLabels trivial) hfree
  | conditionalElse hcondition hlabel hthen hfree helse =>
    have hmark :=
      hbranch (hcondition.keepsLabels trivial) hlabel (hthen.keepsLabels trivial) hfree
    exact hmark.of_keepsLabels (helse.keepsLabels trivial)

lemma Lowers.bindsOnce_statements {ns : List Node} (h : Lowers (.statements ns) b b')
    (hb : b.BindsOnce count) : b'.BindsOnce (count + ns.countP (·.kind = .conditional)) := by
  induction ns generalizing b count with
  | nil =>
    cases h
    exact hb
  | cons n ns ih =>
    cases h with
    | cons hfirst hrest =>
      have := ih hrest (hfirst.bindsOnce_statement hb)
      rwa [Nat.add_assoc, ← List.countP_append] at this

/-- A function binds its name and one label for each of its conditionals. -/
lemma bindsOnce_of_foldlM_lower {fs : List Function} (h : fs.foldlM Function.lower b = .ok b')
    (hb : b.BindsOnce count) :
    b'.BindsOnce
      (count + (fs.length + (fs.flatMap (·.body)).countP (·.kind = .conditional))) := by
  induction fs generalizing b count with
  | nil =>
    obtain rfl := Except.ok.inj h
    exact hb
  | cons f fs ih =>
    rw [List.foldlM_cons, bind_eq_ok_iff] at h
    obtain ⟨b₁, h₁, h₂⟩ := h
    obtain ⟨hfree, hbody⟩ := Function.lowers_of_lower h₁
    have hrest := ih h₂ (hbody.bindsOnce_statements (hb.mark hfree))
    rw [List.length_cons, List.flatMap_cons, List.countP_append]
    convert hrest using 1
    omega

end Lowering

/-- The labels of a code are all different, one for each function and one for each conditional. -/
lemma Program.labels_of_lower {p : Program} {c : Code} (h : p.lower = .ok c) :
    c.labels.names.Nodup ∧ c.labels.length = p.functions.length + p.conditionals := by
  obtain ⟨b, hb, -, rfl⟩ := Program.lower_eq_ok_iff.mp h
  obtain ⟨hnodup, hlength⟩ := bindsOnce_of_foldlM_lower hb (.empty _)
  exact ⟨hnodup, hlength.trans (Nat.zero_add _)⟩

/-! ### Conditionals are statements -/

/-- No conditional stands in an expression. -/
lemma Node.IsExpression.countP_nodes {e : Node} (h : e.IsExpression) :
    e.nodes.countP (·.kind = .conditional) = 0 := by
  induction h with
  | constant | symbol => simp [kind]
  | binary _ _ ihleft ihright =>
    rw [nodes_binary, List.countP_cons_of_neg (by simp [kind]), List.countP_append, ihleft, ihright]
  | negation _ ih => rw [nodes_unary, List.countP_cons_of_neg (by simp [kind]), ih]
  | call _ ih =>
    rw [nodes_call, List.countP_cons_of_neg (by simp [kind]), List.countP_eq_zero]
    intro n hn
    obtain ⟨e, he, hn⟩ := List.mem_flatMap.mp hn
    exact List.countP_eq_zero.mp (ih e he) n hn

/-- No conditional stands below a statement. -/
lemma Node.IsStatement.countP_nodes {n : Node} (h : n.IsStatement) :
    n.nodes.countP (·.kind = .conditional) = [n].countP (·.kind = .conditional) := by
  cases h with
  | giveBack => simp [kind]
  | giveBackValue he =>
    rw [nodes_giveBack, List.countP_cons, he.countP_nodes]
    rfl
  | assign he =>
    rw [nodes_assign, List.countP_cons, he.countP_nodes]
    rfl
  | conditional hc ht =>
    rw [nodes_conditional, List.countP_cons, List.countP_append, List.countP_append,
      hc.countP_nodes, ht.countP_nodes, nodes_missing]
    rfl
  | conditionalElse hc ht he =>
    rw [nodes_conditional, List.countP_cons, List.countP_append, List.countP_append,
      hc.countP_nodes, ht.countP_nodes, he.countP_nodes]
    rfl

lemma Node.countP_flatMap_nodes {ns : List Node} (h : ∀ n ∈ ns, n.IsStatement) :
    (ns.flatMap nodes).countP (·.kind = .conditional) = ns.countP (·.kind = .conditional) := by
  induction ns with
  | nil => rfl
  | cons n ns ih =>
    rw [List.flatMap_cons, List.countP_append, (h n List.mem_cons_self).countP_nodes,
      ih fun m hm => h m (List.mem_cons_of_mem _ hm), ← List.countP_append]
    rfl

/-- In a sensible program, every conditional is a statement of a function. -/
lemma Program.countP_nodes {p : Program} (h : ∀ f ∈ p.functions, f.IsSensible) :
    p.nodes.countP (·.kind = .conditional) = p.conditionals := by
  obtain ⟨fs⟩ := p
  rw [nodes, toNode, conditionals, Node.nodes_program,
    List.countP_cons_of_neg (by simp [Node.kind])]
  show ((fs.map Function.toNode).flatMap Node.nodes).countP _ = _
  induction fs with
  | nil => rfl
  | cons f fs ih =>
    rw [List.map_cons, List.flatMap_cons, List.flatMap_cons, List.countP_append,
      List.countP_append, ih fun g hg => h g (List.mem_cons_of_mem _ hg), Function.toNode,
      Node.nodes_function, List.countP_cons_of_neg (by simp [Node.kind]),
      Node.countP_flatMap_nodes (h f List.mem_cons_self)]

/-! ### Where instructions go -/

/-- Where an instruction goes that does not simply go on. -/
def Instr.target? : Instr → Option Operand
  | .jmp target | .jez target | .call target => some target
  | _ => none

/-- All instructions so far go on or go to labels. -/
def Builder.AimsAtLabels (b : Builder) : Prop :=
  ∀ i ∈ b.instrs.toList, ∀ target ∈ i.target?, ∃ name, target = .label name

namespace Builder.AimsAtLabels

variable {b b' : Builder}

lemma append {i : Instr} (h : b.AimsAtLabels)
    (hi : ∀ target ∈ i.target?, ∃ name, target = .label name) : (b.append i).AimsAtLabels := by
  intro j hj
  rw [toList_append, List.mem_append, List.mem_singleton] at hj
  rcases hj with hj | rfl
  · exact h j hj
  · exact hi

lemma goOn {i : Instr} (h : b.AimsAtLabels) (hi : i.target? = none) :
    (b.append i).AimsAtLabels :=
  h.append (by simp [hi])

lemma goTo {i : Instr} {name : String} (h : b.AimsAtLabels)
    (hi : i.target? = some (.label name)) : (b.append i).AimsAtLabels :=
  h.append (by simp [hi])

lemma of_instrs_eq (h : b.AimsAtLabels) (heq : b'.instrs = b.instrs) : b'.AimsAtLabels := by
  intro i hi
  rw [heq] at hi
  exact h i hi

end Builder.AimsAtLabels

/-- Lowering makes jumps and calls to labels only. -/
lemma Lowers.aimsAtLabels {part : Part} {b b' : Builder} (h : Lowers part b b')
    (hb : b.AimsAtLabels) : b'.AimsAtLabels := by
  -- the test of a conditional and the jump after it
  have htest : ∀ {b₁ b₂ : Builder} {label : String}, b₁.AimsAtLabels →
      (b₁.append (.cmp (.imm 0) accumulator)).newLabel = (label, b₂) →
      (b₂.append (.jez (.label label))).AimsAtLabels := by
    intro b₁ b₂ label hb₁ hlabel
    obtain ⟨-, rfl⟩ := Prod.mk.inj hlabel
    exact Builder.AimsAtLabels.goTo (hb₁.goOn (i := .cmp (.imm 0) accumulator) rfl) rfl
  induction h with
  | constant | giveBack => exact hb.goOn rfl
  | symbol => exact (hb.of_instrs_eq (Builder.instrs_slotFor _ _)).goOn rfl
  | binary _ _ ihleft ihright =>
    exact (ihright ((ihleft hb).goOn rfl)).goOn rfl
  | negation _ ih | giveBackValue _ ih => exact (ih hb).goOn rfl
  | call _ ih => exact (ih hb).goTo rfl
  | noArguments | noStatements => exact hb
  | argument _ _ ihfirst ihrest => exact ihrest ((ihfirst hb).goOn rfl)
  | evaluate _ ih => exact ih hb
  | assign _ ih => exact ((ih hb).of_instrs_eq (Builder.instrs_slotFor _ _)).goOn rfl
  | conditional _ hlabel _ _ ihcondition ihthen => exact ihthen (htest (ihcondition hb) hlabel)
  | conditionalElse _ hlabel _ _ _ ihcondition ihthen ihelse =>
    exact ihelse (ihthen (htest (ihcondition hb) hlabel))
  | cons _ _ ihfirst ihrest => exact ihrest (ihfirst hb)

lemma aimsAtLabels_of_foldlM_lower {fs : List Function} {b b' : Builder}
    (h : fs.foldlM Function.lower b = .ok b') (hb : b.AimsAtLabels) : b'.AimsAtLabels := by
  induction fs generalizing b with
  | nil =>
    obtain rfl := Except.ok.inj h
    exact hb
  | cons f fs ih =>
    rw [List.foldlM_cons, bind_eq_ok_iff] at h
    obtain ⟨b₁, h₁, h₂⟩ := h
    obtain ⟨-, hbody⟩ := Function.lowers_of_lower h₁
    have hmark : (b.mark f.name).AimsAtLabels := hb
    exact ih h₂ (hbody.aimsAtLabels hmark)

/-- Wherever an instruction of a code goes, there is a label that is bound. -/
lemma Program.exists_label_of_lower {p : Program} {c : Code} (h : p.lower = .ok c) {i : Instr}
    (hi : i ∈ c.instrs) {target : Operand} (htarget : target ∈ i.target?) :
    ∃ name index, target = .label name ∧ c.labels.get? name = some index := by
  obtain ⟨b, hb, hresolved, rfl⟩ := Program.lower_eq_ok_iff.mp h
  have hempty : (Builder.empty (p.functions.map (·.name))).AimsAtLabels := by
    intro i hi
    cases hi
  obtain ⟨name, rfl⟩ := aimsAtLabels_of_foldlM_lower hb hempty i hi target htarget
  have hused : name ∈ b.code.referencedLabels := by
    refine List.mem_eraseDups.mpr (List.mem_flatMap.mpr ⟨i, hi, ?_⟩)
    refine List.mem_filterMap.mpr ⟨.label name, ?_, rfl⟩
    cases i <;> cases htarget <;> exact List.mem_singleton_self _
  have hbound : b.code.labels.has name = true := by
    by_contra hfree
    have : name ∈ b.code.unresolvedLabels := List.mem_filter.mpr ⟨hused, by simpa using hfree⟩
    rw [hresolved] at this
    cases this
  rw [Table.has_eq_isSome_get?, Option.isSome_iff_exists] at hbound
  obtain ⟨index, hindex⟩ := hbound
  exact ⟨name, index, rfl, hindex⟩

/-! ### Names of labels -/

lemma Text.continuesWord_of_isDigit {c : Char} (h : c.isDigit = true) : continuesWord c = true := by
  have hdigits : ∀ n ≤ '9'.toNat, '0'.toNat ≤ n → numericRanges.has n = true := by decide +kernel
  obtain ⟨hlow, hhigh⟩ := Char.isDigit_iff_toNat.mp h
  exact continuesWord_of_isNumeric (hdigits c.toNat hhigh hlow)

lemma Builder.isLabelName_numberedLabel (n : Nat) : IsLabelName (numberedLabel n) := by
  have htext : (numberedLabel n).toList = '_' :: Nat.toDigits 10 n := by
    simp [numberedLabel]
  refine ⟨fun hempty => ?_, fun c hc => ?_⟩
  · rw [hempty] at htext
    cases htext
  · rw [htext] at hc
    rcases List.mem_cons.mp hc with rfl | hc
    · decide +kernel
    · exact Text.continuesWord_of_isDigit (Nat.isDigit_of_mem_toDigits (by omega) (by omega) hc)

/-- The names that a text mentions are words. -/
lemma Tiles.isLabelName {file : String} {before text after : List Char} {tokens : List Token}
    (h : Tiles file before text after tokens) {name : String}
    (hname : .identifier name ∈ tokens.map (·.lexeme)) : IsLabelName name := by
  induction h with
  | nil => cases hname
  | gap _ _ ih => exact ih hname
  | lexeme hword _ ih =>
    rcases List.mem_cons.mp hname with heq | hname
    · obtain rfl := heq
      cases hword with
      | name hword =>
        obtain ⟨c, rest, hcons, -⟩ := hword.starts
        refine ⟨fun hempty => ?_, fun d hd => hword.continues d (by simpa using hd)⟩
        have := congrArg String.toList hempty
        simp [hcons] at this
    · exact ih hname

/-- Every function of a program has its name in the text. -/
lemma DerivesFunctions.identifier_mem {w : List Lexeme} {fs : List Function}
    (h : DerivesFunctions w fs) : ∀ f ∈ fs, .identifier f.name ∈ w := by
  induction h with
  | nil => simp
  | unclosed => simp [functionHead]
  | cons _ _ ih =>
    intro f hf
    rcases List.mem_cons.mp hf with rfl | hf
    · simp [functionHead]
    · simp [ih f hf]

/-- The functions of a text have names that labels can have. -/
lemma isLabelName_of_scan {file source : String} {tokens : List Token} {p : Program}
    (hscan : scan file source = .ok tokens) (hparse : parse tokens = .ok p) :
    ∀ f ∈ p.functions, IsLabelName f.name := by
  intro f hf
  have hmem := DerivesFunctions.identifier_mem (derivesProgram_of_parse hparse) f.bare
    (List.mem_map_of_mem hf)
  exact (tiles_of_scan hscan).isLabelName hmem

/-- All labels of a code have such names if its functions do. -/
lemma Program.isLabelName_of_lower {p : Program} {c : Code} (h : p.lower = .ok c)
    (hp : ∀ f ∈ p.functions, IsLabelName f.name) : ∀ label ∈ c.labels, IsLabelName label.1 := by
  obtain ⟨b, hb, -, rfl⟩ := Program.lower_eq_ok_iff.mp h
  intro label hlabel
  have hname : label.1 ∈ b.labels.names := List.mem_map_of_mem hlabel
  rcases (Program.mem_labels_iff hb).mp hname with hname | hname
  · obtain ⟨f, hf, hname⟩ := List.mem_map.mp hname
    exact hname ▸ hp f hf
  · obtain ⟨⟨n, -, hname⟩, -⟩ := mem_mintedBelow.mp (List.mem_of_mem_take hname)
    exact hname ▸ Builder.isLabelName_numberedLabel n

/-! ### Lines -/

namespace Layout

variable {layout : Layout} {index high : Int} {i : Instr} {is : List Instr} {labels : Table Int}
  {label : String × Int} {lines : List String}

instance (line : String) : Decidable (IsLabelLine line) := instDecidableAnd

/-- The lines before the next instruction are those of labels. -/
lemma LabelsWithin.isLabelLine_takeWhile (h : LabelsWithin index high labels) :
    ∀ line ∈ (labels.takeWhile (·.2 ≤ index)).map labelLine, IsLabelLine line := by
  intro line hline
  exact h.isLabelLine line (((List.takeWhile_sublist _).map _).subset hline)

/-- The lines of labels, among all lines, are those of the labels in their order. -/
lemma filter_isLabelLine_of_weave (hlabels : LabelsWithin index high labels)
    (h : layout.weave index is labels = .ok lines) :
    lines.filter (IsLabelLine ·) = labels.map labelLine := by
  induction is generalizing index labels lines with
  | nil =>
    obtain rfl := Except.ok.inj h
    exact List.filter_eq_self.mpr fun line hline => by simpa using hlabels.isLabelLine line hline
  | cons i is ih =>
    obtain ⟨text, rest, htext, hrest, rfl⟩ := exists_of_weave_cons h
    have hnow : ((labels.takeWhile (·.2 ≤ index)).map labelLine).filter (IsLabelLine ·) =
        (labels.takeWhile (·.2 ≤ index)).map labelLine := by
      refine List.filter_eq_self.mpr fun line hline => ?_
      simpa using hlabels.isLabelLine_takeWhile line hline
    rw [List.filter_append, hnow,
      List.filter_cons_of_neg (by simpa using not_isLabelLine_of_instrText htext),
      ih hlabels.later hrest, ← List.map_append, List.takeWhile_append_dropWhile]

/-- The other lines are those of the instructions. -/
lemma filter_not_isLabelLine_of_weave (hlabels : LabelsWithin index high labels)
    (h : layout.weave index is labels = .ok lines) :
    ∃ texts, is.mapM layout.instrText = .ok texts ∧
      lines.filter (¬ IsLabelLine ·) = texts.map (layout.indent ++ ·) := by
  induction is generalizing index labels lines with
  | nil =>
    obtain rfl := Except.ok.inj h
    refine ⟨[], rfl, List.filter_eq_nil_iff.mpr fun line hline => ?_⟩
    simpa using hlabels.isLabelLine line hline
  | cons i is ih =>
    obtain ⟨text, rest, htext, hrest, rfl⟩ := exists_of_weave_cons h
    obtain ⟨texts, htexts, hfilter⟩ := ih hlabels.later hrest
    have hnow : ((labels.takeWhile (·.2 ≤ index)).map labelLine).filter (¬ IsLabelLine ·) = [] := by
      refine List.filter_eq_nil_iff.mpr fun line hline => ?_
      simpa using hlabels.isLabelLine_takeWhile line hline
    refine ⟨text :: texts, ?_, ?_⟩
    · rw [List.mapM_cons, htext, htexts]
      rfl
    · rw [List.filter_append, hnow, List.nil_append,
        List.filter_cons_of_pos (by simpa using not_isLabelLine_of_instrText htext), hfilter,
        List.map_cons]

/-- Labels alone have lines before the line of each, and none of them is that of an instruction. -/
lemma exists_before_of_map_labelLine (hlabels : ∀ line ∈ labels.map labelLine, IsLabelLine line)
    (hlabel : label ∈ labels) :
    ∃ before after, labels.map labelLine = before ++ labelLine label :: after ∧
      before.countP (¬ IsLabelLine ·) = 0 := by
  obtain ⟨former, later, rfl⟩ := List.append_of_mem hlabel
  rw [List.map_append, List.map_cons] at hlabels ⊢
  refine ⟨_, _, rfl, List.countP_eq_zero.mpr fun line hline => ?_⟩
  simpa using hlabels line (List.mem_append_left _ hline)

/-- Before the line of a label stand the lines of the instructions before its place. -/
lemma exists_before_of_weave (hlabels : LabelsWithin index (index + is.length) labels)
    (h : layout.weave index is labels = .ok lines) (hlabel : label ∈ labels) :
    ∃ before after, lines = before ++ labelLine label :: after ∧
      index + (before.countP (¬ IsLabelLine ·) : Int) = label.2 := by
  induction is generalizing index labels lines with
  | nil =>
    obtain rfl := Except.ok.inj h
    obtain ⟨before, after, hlines, hcount⟩ :=
      exists_before_of_map_labelLine hlabels.isLabelLine hlabel
    have hbounded := hlabels.bounded label hlabel
    refine ⟨before, after, hlines, ?_⟩
    simp only [List.length_nil] at hbounded
    omega
  | cons i is ih =>
    obtain ⟨text, rest, htext, hrest, rfl⟩ := exists_of_weave_cons h
    have hnow := hlabels.isLabelLine_takeWhile
    have hlater := hlabels.later
    rw [← List.takeWhile_append_dropWhile (p := fun label : String × Int => label.2 ≤ index)
      (l := labels), List.mem_append] at hlabel
    rcases hlabel with hlabel | hlabel
    · -- the label is of this place, and its line comes before the instruction's
      obtain ⟨before, after, hlines, hcount⟩ := exists_before_of_map_labelLine hnow hlabel
      have hplace := hlabels.eq_low label hlabel
      refine ⟨before, after ++ (layout.indent ++ text) :: rest, by simp [hlines], ?_⟩
      omega
    · -- the label is of a later place, and one more instruction comes before it
      have hlength : index + ((i :: is).length : Int) = index + 1 + is.length := by
        simp only [List.length_cons]
        omega
      rw [hlength] at hlater
      obtain ⟨before, after, rfl, hcount⟩ := ih hlater hrest hlabel
      refine ⟨(labels.takeWhile (·.2 ≤ index)).map labelLine ++ (layout.indent ++ text) :: before,
        after, by simp, ?_⟩
      have hnone : ((labels.takeWhile (·.2 ≤ index)).map labelLine).countP
          (¬ IsLabelLine ·) = 0 := by
        refine List.countP_eq_zero.mpr fun line hline => ?_
        simpa using hnow line hline
      rw [List.countP_append, hnone,
        List.countP_cons_of_pos (by simpa using not_isLabelLine_of_instrText htext)]
      push_cast
      omega

end Layout

/-! ### Listings -/

/-- A label has one line in a listing, and so many lines of instructions stand before it. -/
def HasLabelLine (lines : List String) (name : String) (index : Int) : Prop :=
  ∃ before after, lines = before ++ (name ++ ":") :: after ∧ name ++ ":" ∉ before ++ after ∧
    (before.countP (¬ Layout.IsLabelLine ·) : Int) = index

/-- What a listing must be like to be assembled. -/
structure Compilation.WellLabelled (layout : Layout) (c : Compilation) : Prop where
  /-- No label has two lines. -/
  nodup : (c.lines.filter (Layout.IsLabelLine ·)).Nodup
  /-- There is a label for each function and for each conditional. -/
  length_eq : (c.lines.filter (Layout.IsLabelLine ·)).length =
    c.program.functions.length + c.program.nodes.countP (·.kind = .conditional)
  /-- Jumps and calls go to labels, whose lines stand at their places. -/
  closed : ∀ i ∈ c.code.instrs, ∀ target ∈ i.target?, ∃ name index, target = .label name ∧
    c.code.labels.get? name = some index ∧ HasLabelLine c.lines name index
  /-- All other lines are those of the instructions. -/
  instrs : ∃ texts, c.code.instrs.mapM layout.instrText = .ok texts ∧
    c.lines.filter (¬ Layout.IsLabelLine ·) = texts.map (layout.indent ++ ·)

lemma labelsWithin_of_lower {p : Program} {c : Code} (h : p.lower = .ok c)
    (hp : ∀ f ∈ p.functions, IsLabelName f.name) :
    Layout.LabelsWithin 0 (0 + c.instrs.length) c.labels := by
  have horder := inOrder_of_lower h
  refine ⟨Program.isLabelName_of_lower h hp, horder.sorted, fun label hlabel => ?_⟩
  rw [Int.zero_add]
  exact horder.bounded label hlabel

/-- Different labels have different lines. -/
lemma Layout.nodup_map_labelLine {labels : Table Int} (h : labels.names.Nodup) :
    (labels.map labelLine).Nodup := by
  have hlines : labels.map labelLine = labels.names.map (· ++ ":") := by
    simp [Table.names, labelLine]
  rw [hlines]
  exact h.map fun a b heq => by simpa using heq

/-- The line of a label is in a listing once. -/
lemma hasLabelLine_of_weave {layout : Layout} {is : List Instr} {labels : Table Int}
    {lines : List String} {name : String} {index : Int}
    (hlabels : Layout.LabelsWithin 0 (0 + is.length) labels) (hnodup : labels.names.Nodup)
    (h : layout.weave 0 is labels = .ok lines) (hindex : labels.get? name = some index) :
    HasLabelLine lines name index := by
  have hlabel := Table.mem_of_get? hindex
  obtain ⟨before, after, hlines, hcount⟩ := Layout.exists_before_of_weave hlabels h hlabel
  refine ⟨before, after, hlines, fun hagain => ?_, by simpa using hcount⟩
  -- a second such line would be a second one among the lines of labels
  have hline : Layout.IsLabelLine (Layout.labelLine (name, index)) :=
    Layout.isLabelLine_labelLine (hlabels.names _ hlabel)
  have honce := Layout.nodup_map_labelLine hnodup
  rw [← Layout.filter_isLabelLine_of_weave hlabels h, hlines, List.filter_append,
    List.filter_cons_of_pos (by simpa using hline), List.nodup_middle,
    ← List.filter_append] at honce
  exact (List.nodup_cons.mp honce).1 (List.mem_filter.mpr ⟨hagain, by simpa using hline⟩)

/-- Whatever is compiled, by whatever layout, has a listing that is closed and well labelled. -/
theorem wellLabelled_of_compile (layout : Layout) (file source : String) (c : Compilation)
    (h : compile layout file source = .ok c) : c.WellLabelled layout := by
  obtain ⟨hscan, hparse, hlower, hrender⟩ := stages_of_compile h
  have hlabels := labelsWithin_of_lower hlower (isLabelName_of_scan hscan hparse)
  have hweave := Layout.weave_of_render (inOrder_of_lower hlower) hrender
  obtain ⟨hnodup, hlength⟩ := Program.labels_of_lower hlower
  have hfilter := Layout.filter_isLabelLine_of_weave hlabels hweave
  have hsensible := isSensible_of_parse hparse (ne_nan_of_scan hscan)
  refine ⟨?_, ?_, ?_, Layout.filter_not_isLabelLine_of_weave hlabels hweave⟩
  · rw [hfilter]
    exact Layout.nodup_map_labelLine hnodup
  · rw [hfilter, List.length_map, hlength, Program.countP_nodes hsensible]
  · intro i hi target htarget
    obtain ⟨name, index, htarget, hindex⟩ := Program.exists_label_of_lower hlower hi htarget
    exact ⟨name, index, htarget, hindex, hasLabelLine_of_weave hlabels hnodup hweave hindex⟩

/-- The listing of `fun f(){if(1)2;}`. -/
def conditionalLines : List String :=
  ["f:", "\tmovq $1, %0", "\tcmp $0, %0", "\tjez _0", "\tmovq $2, %0", "_0:"]

/-- A label after the last instruction. -/
theorem wellLabelled_of_compile_conditional :
    ∃ c, compile Layout.standard "a" "fun f(){if(1)2;}" = .ok c ∧ c.lines = conditionalLines ∧
      c.WellLabelled Layout.standard := by
  have hscan : scan "a" "fun f(){if(1)2;}" = .ok conditionalTokens := by decide +kernel
  have hparse : parse conditionalTokens = .ok ⟨[conditionalFunction]⟩ := rfl
  have hlower : Program.lower ⟨[conditionalFunction]⟩ =
      .ok ⟨conditionalInstrs, [("f", 0), ("_0", 4)], []⟩ := by decide +kernel
  have hrender : Layout.standard.render ⟨conditionalInstrs, [("f", 0), ("_0", 4)], []⟩ =
      .ok conditionalLines := by cbv
  have hvalid : Layout.standard.validate = .ok () := rfl
  have hc := compile_of_render hvalid hscan hparse hlower hrender
  exact ⟨_, hc, rfl, wellLabelled_of_compile _ _ _ _ hc⟩

end TinyCompiler
