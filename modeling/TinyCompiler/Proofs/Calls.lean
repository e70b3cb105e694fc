import Mathlib.Algebra.GroupWithZero.Nat
import TinyCompiler.Proofs.Labels
import TinyCompiler.Proofs.Tree

/-!
# Calls and where they go

Which functions a program calls, in the order of evaluation, and how many instructions each part of
it becomes, both read off the tree. The labels that code refers to are those of the calls and those
that were made up for conditionals, and since the latter are all bound, code is complete if every
function that is called is declared or has the name of a label that was made up.
-/

namespace TinyCompiler

/-! ### Calls and sizes of trees -/

namespace Node

mutual

/-- The functions that a tree calls, in the order in which the calls are made. -/
def callees : Node → List String
  | .binary _ left right _ => left.callees ++ right.callees
  | .evaluate e _ | .assign _ e _ | .giveBack e _ | .unary _ e _ => e.callees
  | .conditional c t e _ => c.callees ++ t.callees ++ e.callees
  | .call name es _ => calleesAll es ++ [name]
  | .program ns _ | .function _ ns _ => calleesAll ns
  | .missing | .bareStatement _ | .bareExpression _ | .constant _ _ | .symbol _ _
  | .rowless _ _ => []
termination_by structural n => n

/-- The functions that a row of trees calls. -/
def calleesAll : List Node → List String
  | [] => []
  | n :: ns => n.callees ++ calleesAll ns
termination_by structural ns => ns

end

lemma calleesAll_eq_flatMap (ns : List Node) : calleesAll ns = ns.flatMap callees := by
  induction ns with
  | nil => rfl
  | cons n ns ih => rw [calleesAll, ih, List.flatMap_cons]

mutual

/-- The functions that are called are the names of the calls, wherever they stand. -/
theorem mem_callees_iff : (n : Node) → (name : String) →
    (name ∈ n.callees ↔ ∃ es l, Node.call name es l ∈ n.nodes)
  | .missing, name | .constant _ _, name | .symbol _ _, name => by simp [callees]
  | .bareStatement _, name | .bareExpression _, name | .rowless _ _, name => by
    simp [callees, nodes, preorder]
  | .evaluate e _, name | .assign _ e _, name | .giveBack e _, name | .unary _ e _, name => by
    simp [callees, mem_callees_iff e]
  | .conditional c t e _, name => by
    simp only [callees, List.mem_append, mem_callees_iff c, mem_callees_iff t, mem_callees_iff e]
    simp only [nodes_conditional, List.mem_cons, List.mem_append, reduceCtorEq, false_or,
      exists_or]
  | .binary _ left right _, name => by
    simp only [callees, List.mem_append, mem_callees_iff left, mem_callees_iff right]
    simp only [nodes_binary, List.mem_cons, List.mem_append, reduceCtorEq, false_or, exists_or]
  | .call f es l, name => by
    simp only [callees, List.mem_append, mem_calleesAll_iff es, List.mem_singleton]
    simp only [nodes_call, List.mem_cons, call.injEq, exists_or]
    rw [or_comm]
    simp
  | .program ns _, name => by simp [callees, mem_calleesAll_iff ns]
  | .function _ ns _, name => by simp [callees, mem_calleesAll_iff ns]

theorem mem_calleesAll_iff : (ns : List Node) → (name : String) →
    (name ∈ calleesAll ns ↔ ∃ es l, Node.call name es l ∈ ns.flatMap nodes)
  | [], name => by simp [calleesAll]
  | n :: ns, name => by
    simp only [calleesAll, List.mem_append, mem_callees_iff n, mem_calleesAll_iff ns]
    simp only [List.flatMap_cons, List.mem_append, exists_or]

end

mutual

/-- How many instructions a part of a function becomes. -/
def codeSize : Node → Nat
  | .constant _ _ | .symbol _ _ => 1
  | .unary _ e _ => e.codeSize + 1
  | .binary _ left right _ => left.codeSize + right.codeSize + 2
  | .call _ es _ => argumentsSize es + 1
  | .evaluate e _ => e.codeSize
  | .assign _ e _ | .giveBack e _ => e.codeSize + 1
  | .conditional c t e _ => c.codeSize + t.codeSize + e.codeSize + 2
  | .missing | .program _ _ | .function _ _ _ | .bareStatement _ | .bareExpression _
  | .rowless _ _ => 0
termination_by structural n => n

/-- How many instructions the arguments of a call become. -/
def argumentsSize : List Node → Nat
  | [] => 0
  | e :: es => e.codeSize + 1 + argumentsSize es
termination_by structural es => es

end

end Node

/-- How many instructions a function becomes. -/
def Function.codeSize (f : Function) : Nat := (f.body.map Node.codeSize).sum

/-- The functions that a function calls, in the order of evaluation. -/
def Function.callees (f : Function) : List String := f.body.flatMap Node.callees

namespace Program

/-- The names of the functions of a program. -/
def names (p : Program) : List String := p.functions.map (·.name)

/-- The functions that a program calls, in the order of evaluation. -/
def callees (p : Program) : List String := p.functions.flatMap Function.callees

/-- How many conditionals a program has; they are statements and stand in no other node. -/
def conditionals (p : Program) : Nat :=
  (p.functions.flatMap (·.body)).countP (·.kind = .conditional)

/-- The labels that are made up for the conditionals of a program: the first ones that are names of
no function. -/
def mintedLabels (p : Program) : List String := TinyCompiler.mintedLabels p.names p.conditionals

lemma mem_callees_iff {p : Program} {name : String} :
    name ∈ p.callees ↔ ∃ es l, Node.call name es l ∈ p.nodes := by
  rw [nodes, ← Node.mem_callees_iff, toNode, Node.callees, Node.calleesAll_eq_flatMap,
    List.flatMap_map]
  simp only [Function.toNode, Node.callees, Node.calleesAll_eq_flatMap]
  rfl

end Program

/-! ### Calls and sizes of code -/

/-- How many instructions a part becomes. -/
def Part.codeSize : Part → Nat
  | .expression e => e.codeSize
  | .arguments _ es => Node.argumentsSize es
  | .statement n => n.codeSize
  | .statements ns => (ns.map Node.codeSize).sum

/-- The functions that a part calls. -/
def Part.callees : Part → List String
  | .expression e => e.callees
  | .arguments _ es => Node.calleesAll es
  | .statement n => n.callees
  | .statements ns => ns.flatMap Node.callees

section Labels

variable (src dst target : Operand) (op : Op) (op? : Option Op) (n : Int) (position : Nat)
  (name : String)

@[simp] lemma Operand.label?_imm : (Operand.imm n).label? = none := rfl

@[simp] lemma Operand.label?_slot : (Operand.slot n).label? = none := rfl

@[simp] lemma Operand.label?_label : (Operand.label name).label? = some name := rfl

@[simp] lemma label?_accumulator : accumulator.label? = none := rfl

@[simp] lemma label?_scratch : scratch.label? = none := rfl

@[simp] lemma label?_argumentRegister : (argumentRegister position).label? = none := rfl

@[simp] lemma Instr.labels_mov :
    (Instr.mov src dst).labels = src.label?.toList ++ dst.label?.toList := by
  simp [labels, operands, List.filterMap_cons]
  cases src.label? <;> cases dst.label? <;> rfl

@[simp] lemma Instr.labels_binOp :
    (Instr.binOp src op? dst).labels = src.label?.toList ++ dst.label?.toList :=
  Instr.labels_mov src dst

@[simp] lemma Instr.labels_cmp :
    (Instr.cmp src dst).labels = src.label?.toList ++ dst.label?.toList :=
  Instr.labels_mov src dst

@[simp] lemma Instr.labels_call : (Instr.call target).labels = target.label?.toList := by
  simp only [labels, operands, List.filterMap_cons, List.filterMap_nil]
  cases target.label? <;> rfl

@[simp] lemma Instr.labels_jez : (Instr.jez target).labels = target.label?.toList :=
  Instr.labels_call target

@[simp] lemma Instr.labels_unOp : (Instr.unOp op target).labels = target.label?.toList :=
  Instr.labels_call target

@[simp] lemma Instr.labels_ret : Instr.ret.labels = [] := rfl

end Labels

/-- The labels that the instructions so far refer to. -/
def Builder.referenced (b : Builder) : List String := b.instrs.toList.flatMap Instr.labels

@[simp] lemma Builder.referenced_append (b : Builder) (i : Instr) :
    (b.append i).referenced = b.referenced ++ i.labels := by
  simp [referenced]

@[simp] lemma Builder.referenced_slotFor (b : Builder) (x : String) :
    (b.slotFor x).2.referenced = b.referenced := by
  simp [referenced]

@[simp] lemma Builder.referenced_mark (b : Builder) (name : String) :
    (b.mark name).referenced = b.referenced := rfl

lemma Builder.referenced_of_newLabel {b b' : Builder} {label : String}
    (h : b.newLabel = (label, b')) : b'.referenced = b.referenced := by
  obtain ⟨-, rfl⟩ := Prod.mk.inj h
  rfl

/-- The function that an instruction calls. -/
def Instr.callee? : Instr → Option String
  | .call target => target.label?
  | _ => none

/-- The functions that the instructions so far call. -/
def Builder.calls (b : Builder) : List String := b.instrs.toList.filterMap Instr.callee?

@[simp] lemma Builder.calls_append (b : Builder) (i : Instr) :
    (b.append i).calls = b.calls ++ i.callee?.toList := by
  cases h : i.callee? <;> simp [calls, h]

@[simp] lemma Builder.calls_slotFor (b : Builder) (x : String) :
    (b.slotFor x).2.calls = b.calls := by
  simp [calls]

@[simp] lemma Builder.calls_mark (b : Builder) (name : String) :
    (b.mark name).calls = b.calls := rfl

lemma Builder.calls_of_newLabel {b b' : Builder} {label : String}
    (h : b.newLabel = (label, b')) : b'.calls = b.calls := by
  obtain ⟨-, rfl⟩ := Prod.mk.inj h
  rfl

namespace Lowers

variable {part : Part} {b b' : Builder}

/-- The instructions call what the part calls, in the same order. -/
lemma calls (h : Lowers part b b') : b'.calls = b.calls ++ part.callees := by
  induction h with
  | constant | symbol | giveBack | noArguments | noStatements =>
    simp [Instr.callee?, Part.callees, Node.callees, Node.calleesAll]
  | binary _ _ ihleft ihright =>
    simp [ihright, ihleft, Instr.callee?, Part.callees, Node.callees]
  | negation _ ih | call _ ih | assign _ ih | giveBackValue _ ih =>
    simp [ih, Instr.callee?, Part.callees, Node.callees]
  | evaluate _ ih => exact ih
  | argument _ _ ihfirst ihrest =>
    simp [ihrest, ihfirst, Instr.callee?, Part.callees, Node.calleesAll]
  | conditional _ hlabel _ _ ihcondition ihthen =>
    have hnew := Builder.calls_of_newLabel hlabel
    simp [ihthen, hnew, ihcondition, Instr.callee?, Part.callees, Node.callees]
  | conditionalElse _ hlabel _ _ _ ihcondition ihthen ihelse =>
    have hnew := Builder.calls_of_newLabel hlabel
    simp [ihelse, ihthen, hnew, ihcondition, Instr.callee?, Part.callees, Node.callees]
  | cons _ _ ihfirst ihrest => simp [ihrest, ihfirst, Part.callees]

/-- A part becomes as many instructions as its size says. -/
lemma position (h : Lowers part b b') : b'.position = b.position + part.codeSize := by
  induction h with
  | constant | symbol | giveBack => simp [Part.codeSize, Node.codeSize]
  | noArguments | noStatements => rfl
  | binary _ _ ihleft ihright =>
    simp only [Part.codeSize, Node.codeSize, Builder.position_append] at ihleft ihright ⊢
    omega
  | negation _ ih | call _ ih | evaluate _ ih | assign _ ih | giveBackValue _ ih =>
    simp only [Part.codeSize, Node.codeSize, Builder.position_append,
      Builder.position_slotFor] at ih ⊢
    omega
  | argument _ _ ihfirst ihrest =>
    simp only [Part.codeSize, Node.argumentsSize, Builder.position_append] at ihfirst ihrest ⊢
    omega
  | conditional _ hlabel _ _ ihcondition ihthen =>
    have hnew := Builder.position_of_newLabel hlabel
    simp only [Part.codeSize, Node.codeSize, Builder.position_append,
      Builder.position_mark] at hnew ihcondition ihthen ⊢
    omega
  | conditionalElse _ hlabel _ _ _ ihcondition ihthen ihelse =>
    have hnew := Builder.position_of_newLabel hlabel
    simp only [Part.codeSize, Node.codeSize, Builder.position_append,
      Builder.position_mark] at hnew ihcondition ihthen ihelse ⊢
    omega
  | cons _ _ ihfirst ihrest =>
    simp only [Part.codeSize, List.map_cons, List.sum_cons] at ihfirst ihrest ⊢
    omega

/-- The labels that a part refers to and that are not bound when it is done are functions that it
calls. -/
lemma referenced (h : Lowers part b b') {isOpen : String → Bool}
    (hopen : ∀ name ∈ b'.labels.names, isOpen name = false) :
    b'.referenced.filter isOpen = b.referenced.filter isOpen ++ part.callees.filter isOpen := by
  -- what is bound early is bound in the end
  have hearlier : ∀ {b₁ b₂ : Builder}, b₁.Within b₂.code →
      (∀ name ∈ b₂.labels.names, isOpen name = false) →
      ∀ name ∈ b₁.labels.names, isOpen name = false := by
    intro b₁ b₂ hwithin hopen name hname
    exact hopen name ((hwithin.labels.map _).subset hname)
  -- the label of a conditional is bound once its first branch is done
  have htest : ∀ {b₁ b₂ b₃ : Builder} {label : String} {e : Node},
      (b₁.append (.cmp (.imm 0) accumulator)).newLabel = (label, b₂) →
      Lowers (.expression e) (b₂.append (.jez (.label label))) b₃ →
      (∀ name ∈ (b₃.mark label).labels.names, isOpen name = false) →
      isOpen label = false ∧ (∀ name ∈ b₃.labels.names, isOpen name = false) ∧
        ∀ name ∈ b₁.labels.names, isOpen name = false := by
    intro b₁ b₂ b₃ label e hlabel hthen hopen
    have hopen₃ := hearlier (Builder.Within.mark b₃ label) hopen
    have hjump := (Builder.Within.append b₁ _).trans (.newLabel hlabel)
    refine ⟨hopen label (by simp [Table.names]), hopen₃, ?_⟩
    exact hearlier ((hjump.trans (.append b₂ _)).trans hthen.within) hopen₃
  induction h with
  | constant | symbol | giveBack | noArguments | noStatements =>
    simp [Part.callees, Node.callees, Node.calleesAll]
  | binary _ hright ihleft ihright =>
    have hopen₁ := hearlier ((Builder.Within.append _ _).trans hright.within) hopen
    simp [ihright hopen, ihleft hopen₁, Part.callees, Node.callees]
  | negation _ ih | giveBackValue _ ih =>
    simp [ih hopen, Part.callees, Node.callees]
  | assign _ ih =>
    rw [Builder.labels_append, Builder.labels_slotFor] at hopen
    simp [ih hopen, Part.callees, Node.callees]
  | call _ ih => simp [ih hopen, Part.callees, Node.callees]
  | evaluate _ ih => exact ih hopen
  | argument _ hrest ihfirst ihrest =>
    have hopen₁ := hearlier ((Builder.Within.append _ _).trans hrest.within) hopen
    simp [ihrest hopen, ihfirst hopen₁, Part.callees, Node.calleesAll]
  | conditional _ hlabel hthen _ ihcondition ihthen =>
    obtain ⟨hmark, hopen₃, hopen₁⟩ := htest hlabel hthen hopen
    have hnew := Builder.referenced_of_newLabel hlabel
    simp [ihthen hopen₃, hnew, hmark, ihcondition hopen₁, Part.callees, Node.callees]
  | conditionalElse _ hlabel hthen _ helse ihcondition ihthen ihelse =>
    obtain ⟨hmark, hopen₃, hopen₁⟩ := htest hlabel hthen (hearlier helse.within hopen)
    have hnew := Builder.referenced_of_newLabel hlabel
    simp [ihelse hopen, ihthen hopen₃, hnew, hmark, ihcondition hopen₁, Part.callees, Node.callees]
  | cons _ hrest ihfirst ihrest =>
    rw [ihrest hopen, ihfirst (hearlier hrest.within hopen)]
    simp [Part.callees]

end Lowers

/-! ### Functions -/

section Functions

variable {fs : List Function} {f : Function} {b b' : Builder} {reserved declared : List String}
  {count : Nat}

/-- A function binds its name and the labels of its conditionals. -/
lemma labelled_of_lower (h : f.lower b = .ok b') (hb : b.Labelled reserved declared count)
    (hf : f.name ∈ reserved) :
    b'.Labelled reserved (declared ++ [f.name])
      (count + f.body.countP (·.kind = .conditional)) := by
  obtain ⟨-, hbody⟩ := Function.lowers_of_lower h
  exact hbody.labelled_statements (hb.declare hf)

lemma labelled_of_foldlM_lower (h : fs.foldlM Function.lower b = .ok b')
    (hb : b.Labelled reserved declared count) (hfs : fs.map (·.name) ⊆ reserved) :
    b'.Labelled reserved (declared ++ fs.map (·.name))
      (count + (fs.flatMap (·.body)).countP (·.kind = .conditional)) := by
  induction fs generalizing b declared count with
  | nil =>
    obtain rfl := Except.ok.inj h
    simpa using hb
  | cons f fs ih =>
    rw [List.foldlM_cons, bind_eq_ok_iff] at h
    obtain ⟨b₁, h₁, h₂⟩ := h
    rw [List.map_cons, List.cons_subset] at hfs
    have := ih h₂ (labelled_of_lower h₁ hb hfs.1) hfs.2
    simpa [Nat.add_assoc] using this

lemma position_of_foldlM_lower (h : fs.foldlM Function.lower b = .ok b') :
    b'.position = b.position + (fs.map Function.codeSize).sum := by
  induction fs generalizing b with
  | nil =>
    obtain rfl := Except.ok.inj h
    rfl
  | cons f fs ih =>
    rw [List.foldlM_cons, bind_eq_ok_iff] at h
    obtain ⟨b₁, h₁, h₂⟩ := h
    obtain ⟨-, hbody⟩ := Function.lowers_of_lower h₁
    have hsize : b₁.position = b.position + f.codeSize := hbody.position
    rw [ih h₂, hsize, List.map_cons, List.sum_cons, Nat.add_assoc]

lemma calls_of_foldlM_lower (h : fs.foldlM Function.lower b = .ok b') :
    b'.calls = b.calls ++ fs.flatMap Function.callees := by
  induction fs generalizing b with
  | nil =>
    obtain rfl := Except.ok.inj h
    simp
  | cons f fs ih =>
    rw [List.foldlM_cons, bind_eq_ok_iff] at h
    obtain ⟨b₁, h₁, h₂⟩ := h
    obtain ⟨-, hbody⟩ := Function.lowers_of_lower h₁
    have hcalls : b₁.calls = b.calls ++ f.callees := hbody.calls
    rw [ih h₂, hcalls, List.flatMap_cons, List.append_assoc]

lemma referenced_of_foldlM_lower (h : fs.foldlM Function.lower b = .ok b')
    {isOpen : String → Bool} (hopen : ∀ name ∈ b'.labels.names, isOpen name = false) :
    b'.referenced.filter isOpen =
      b.referenced.filter isOpen ++ (fs.flatMap Function.callees).filter isOpen := by
  induction fs generalizing b with
  | nil =>
    obtain rfl := Except.ok.inj h
    simp
  | cons f fs ih =>
    rw [List.foldlM_cons, bind_eq_ok_iff] at h
    obtain ⟨b₁, h₁, h₂⟩ := h
    obtain ⟨-, hbody⟩ := Function.lowers_of_lower h₁
    have hopen₁ : ∀ name ∈ b₁.labels.names, isOpen name = false := by
      intro name hname
      exact hopen name (((within_of_foldlM_lower h₂).labels.map _).subset hname)
    have hfirst : b₁.referenced.filter isOpen =
        b.referenced.filter isOpen ++ f.callees.filter isOpen := hbody.referenced hopen₁
    rw [ih h₂, hfirst, List.flatMap_cons, List.filter_append, List.append_assoc]

end Functions

/-! ### Programs -/

/-- The first label that a rule applies to is the same whether or not repetitions are dropped. -/
lemma head?_filter_eraseDups (names : List String) (p : String → Bool) :
    (names.eraseDups.filter p).head? = names.find? p := by
  induction hn : names.length using Nat.strongRecOn generalizing names with
  | ind n ih =>
    cases names with
    | nil => rfl
    | cons name names =>
      have hshort : (names.filter fun other => !other == name).length < n := by
        have := List.length_filter_le (fun other => !other == name) names
        simp only [List.length_cons] at hn
        omega
      rw [List.eraseDups_cons, List.filter_cons, List.find?_cons]
      cases hp : p name with
      | true => rfl
      | false =>
        simp only [Bool.false_eq_true, if_false]
        rw [ih _ hshort _ rfl, List.find?_filter]
        congr 1
        funext other
        by_cases hother : other = name
        · simp [hother, hp]
        · simp [hother]

namespace Program

variable {p : Program} {b : Builder} {c : Code} {name : String}

/-- Whether a name is neither that of a function nor a label made up for a conditional. -/
def lacks (p : Program) (name : String) : Bool :=
  !p.names.contains name && !p.mintedLabels.contains name

lemma lacks_iff : p.lacks name = true ↔ name ∉ p.names ∧ name ∉ p.mintedLabels := by
  simp [lacks]

/-- When all functions are lowered, bound are their names and the labels that were made up. -/
lemma mem_labels_iff (h : p.functions.foldlM Function.lower (.empty p.names) = .ok b) :
    name ∈ b.labels.names ↔ name ∈ p.names ∨ name ∈ p.mintedLabels := by
  have hb := labelled_of_foldlM_lower h (.empty p.names) (List.Subset.refl p.names)
  rw [Nat.zero_add, List.nil_append] at hb
  exact hb.mem_names_iff_mintedLabels

/-- The first label that marks nothing is the first function called that is lacking. -/
lemma head?_unresolvedLabels (h : p.functions.foldlM Function.lower (.empty p.names) = .ok b) :
    b.code.unresolvedLabels.head? = p.callees.find? p.lacks := by
  have hlacks : ∀ name, (!b.code.labels.has name) = p.lacks name := by
    intro name
    have hbound : b.labels.has name = true ↔ name ∈ p.names ∨ name ∈ p.mintedLabels := by
      rw [Table.has_iff, mem_labels_iff h]
    rw [Bool.eq_iff_iff, lacks_iff]
    show (!b.labels.has name) = true ↔ _
    rw [Bool.not_eq_true', ← Bool.not_eq_true, hbound, not_or]
  have hopen : ∀ name ∈ b.labels.names, p.lacks name = false := by
    intro name hname
    have := (mem_labels_iff h).mp hname
    rw [← Bool.not_eq_true, lacks_iff]
    tauto
  have hcalls := referenced_of_foldlM_lower h hopen
  rw [Code.unresolvedLabels, funext hlacks]
  show (b.referenced.eraseDups.filter p.lacks).head? = _
  rw [head?_filter_eraseDups, ← List.head?_filter, hcalls, ← List.head?_filter]
  rfl

/-- Once all functions are lowered, code is complete unless a function that is called is lacking. -/
lemma lower_of_foldlM (h : p.functions.foldlM Function.lower (.empty p.names) = .ok b) :
    (p.callees.find? p.lacks = none → p.lower = .ok b.code) ∧
    ∀ callee, p.callees.find? p.lacks = some callee →
      ∃ similar, p.lower = .error (.unresolvedLabel callee similar) := by
  have hlower : p.lower = b.finish := by
    show (p.functions.foldlM Function.lower (.empty p.names) >>= fun b => b.finish) = b.finish
    rw [h]
    rfl
  have hhead := head?_unresolvedLabels h
  rw [hlower, Builder.finish, Code.checkLabels]
  constructor
  · intro hnone
    rw [hnone, List.head?_eq_none_iff] at hhead
    rw [hhead]
  · intro callee hsome
    rw [hsome, List.head?_eq_some_iff] at hhead
    obtain ⟨rest, hrest⟩ := hhead
    rw [hrest]
    exact ⟨_, rfl⟩

/-- In code, every function that is called is declared or has the name of a label that was made
up. -/
lemma mem_of_lower (h : p.lower = .ok c) (hname : name ∈ p.callees) :
    name ∈ p.names ∨ name ∈ p.mintedLabels := by
  obtain ⟨b, hb, -, -⟩ := Program.lower_eq_ok_iff.mp h
  cases hfind : p.callees.find? p.lacks with
  | none =>
    have := List.find?_eq_none.mp hfind name hname
    rw [lacks_iff] at this
    tauto
  | some callee =>
    obtain ⟨similar, herror⟩ := (lower_of_foldlM hb).2 callee hfind
    rw [h] at herror
    cases herror

/-- No label that is made up is the name of a function. -/
lemma not_mem_names_of_mem_mintedLabels (h : name ∈ p.mintedLabels) : name ∉ p.names :=
  (mem_mintedBelow.mp (List.mem_of_mem_take h)).2

/-- The instructions of a code call what the program calls, in the order of evaluation. -/
lemma calls_of_lower (h : p.lower = .ok c) : c.instrs.filterMap Instr.callee? = p.callees := by
  obtain ⟨b, hb, -, rfl⟩ := Program.lower_eq_ok_iff.mp h
  exact calls_of_foldlM_lower hb

/-- Every function of a program has its place in the code, after the functions before it. -/
lemma exists_lowers_function (h : p.lower = .ok c) {before after : List Function} {f : Function}
    (hf : p.functions = before ++ f :: after) :
    ∃ b b' : Builder, b.position = (before.map Function.codeSize).sum ∧
      b.labels.get? f.name = none ∧ Lowers (.statements f.body) (b.mark f.name) b' ∧
      b'.Within c := by
  obtain ⟨last, hlast, -, rfl⟩ := Program.lower_eq_ok_iff.mp h
  rw [hf, List.foldlM_append, bind_eq_ok_iff] at hlast
  obtain ⟨b, hbefore, hlast⟩ := hlast
  rw [List.foldlM_cons, bind_eq_ok_iff] at hlast
  obtain ⟨b', hf', hafter⟩ := hlast
  obtain ⟨hfree, hbody⟩ := Function.lowers_of_lower hf'
  refine ⟨b, b', ?_, hfree, hbody, within_of_foldlM_lower hafter⟩
  rw [position_of_foldlM_lower hbefore]
  exact Nat.zero_add _

/-- The name of a function marks the instruction after those of the functions before it. -/
lemma get?_of_lower (h : p.lower = .ok c) {before after : List Function} {f : Function}
    (hf : p.functions = before ++ f :: after) :
    c.labels.get? f.name = some ((before.map Function.codeSize).sum : Int) := by
  obtain ⟨b, b', hposition, hfree, hbody, hwithin⟩ := exists_lowers_function h hf
  rw [(hbody.within.trans hwithin).get?_mark hfree, hposition]

/-- Somewhere in a program a function is called. -/
def Calls (p : Program) (name : String) : Prop := ∃ es l, Node.call name es l ∈ p.nodes

end Program

/-- Calls go to declared functions unless a label that was made up for a conditional has the name of
a function that is called. The instructions call what the program calls, every declared function is
marked where its code begins, and a program that calls anything else has no code. -/
theorem calls_declared_iff (p : Program) :
    (∀ c, p.lower = .ok c →
      c.instrs.filterMap Instr.callee? = p.callees ∧
      (∀ before f after, p.functions = before ++ f :: after →
        c.labels.get? f.name = some ((before.map Function.codeSize).sum : Int)) ∧
      ((∀ name, p.Calls name → name ∈ p.names) ↔
        ∀ name, p.Calls name → name ∉ p.mintedLabels)) ∧
    ((∃ name, p.Calls name ∧ name ∉ p.names ∧ name ∉ p.mintedLabels) →
      ∃ e, p.lower = .error e) := by
  constructor
  · intro c hc
    refine ⟨Program.calls_of_lower hc, fun before f after hf => Program.get?_of_lower hc hf, ?_⟩
    constructor
    · intro hdeclared name hname hminted
      exact Program.not_mem_names_of_mem_mintedLabels hminted (hdeclared name hname)
    · intro hfree name hname
      rcases Program.mem_of_lower hc (Program.mem_callees_iff.mpr hname) with hmem | hmem
      · exact hmem
      · exact absurd hmem (hfree name hname)
  · rintro ⟨name, hname, hundeclared, hfree⟩
    cases hc : p.lower with
    | error e => exact ⟨e, rfl⟩
    | ok c =>
      rcases Program.mem_of_lower hc (Program.mem_callees_iff.mpr hname) with hmem | hmem
      · exact absurd hmem hundeclared
      · exact absurd hmem hfree

/-- Nothing here is called `_0` but the place after the branch, and the branch calls that. -/
example : (Program.mk [⟨"main",
      [.conditional (.symbol "x" none) (.call "_0" [] none) .missing none], none⟩]).lower =
    .ok ⟨[.mov (.slot 0) accumulator, .cmp (.imm 0) accumulator, .jez (.label "_0"),
      .call (.label "_0")], [("main", 0), ("_0", 4)], [("x", 0)]⟩ := rfl

end TinyCompiler
