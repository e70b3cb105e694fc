import TinyCompiler.Proofs.Calls
import TinyCompiler.Proofs.Simulation

/-!
# Both branches are executed

The code of a conditional jumps past the first branch if the condition is zero. Nothing jumps past
the second branch, so a condition that is not zero leads through both of them, and the value of the
first one is lost. What is in the accumulator after the statement is in any case the value of the
second branch (`conditional_leaves_second`), which is the value that the conditional should have
only if the condition is zero or both branches have the same value.

This is said of expressions whose value can be read off the tree and the places of the variables
(`Node.valueIn`): no function is called, and the register that keeps a left operand is not needed
while the right one is evaluated (`Node.IsSimple`).
-/

namespace TinyCompiler

/-! ### Values of expressions -/

/-- The value of an expression without calls, if variables are read from their places. -/
def Node.valueIn (arith : Op → Int → Int → Int) (places : Table Nat) (slots : Int → Int) :
    Node → Option Int
  | .constant value _ => value.truncate.toOption
  | .symbol x _ => (places.get? x).map fun place => slots place
  | .binary (some op) left right _ => do
    let x ← left.valueIn arith places slots
    let y ← right.valueIn arith places slots
    return arith op x y
  | .unary (some .sub) operand _ => do
    let x ← operand.valueIn arith places slots
    return -x
  | _ => none
termination_by structural e => e

/-- An expression without calls whose operations have operators and right operands without further
operations. -/
structure Node.IsSimple (e : Node) : Prop where
  noCall : ∀ n ∈ e.nodes, n.kind ≠ .call
  plainRight : ∀ op left right l, .binary op left right l ∈ e.nodes →
    ∀ n ∈ right.nodes, n.kind ≠ .binary
  operator : ∀ op left right l, .binary op left right l ∈ e.nodes → op ≠ none

namespace Node.IsSimple

variable {op : Option Op} {e left right : Node} {l : Option Location}

/-- All parts of a simple expression are simple. -/
lemma of_subset (h : e.IsSimple) (hnodes : left.nodes ⊆ e.nodes) : left.IsSimple :=
  ⟨fun n hn => h.noCall n (hnodes hn), fun op a b l hn => h.plainRight op a b l (hnodes hn),
    fun op a b l hn => h.operator op a b l (hnodes hn)⟩

lemma leftOperand (h : (Node.binary op left right l).IsSimple) : left.IsSimple :=
  h.of_subset (by simp)

lemma rightOperand (h : (Node.binary op left right l).IsSimple) : right.IsSimple :=
  h.of_subset (by simp)

lemma operand (h : (Node.unary op e l).IsSimple) : e.IsSimple :=
  h.of_subset (by simp)

lemma isPlain_right (h : (Node.binary op left right l).IsSimple) : right.IsPlain := by
  intro n hn
  exact ⟨h.plainRight op left right l (by simp) n hn, h.rightOperand.noCall n hn⟩

end Node.IsSimple

/-! ### Runs through a stretch of code -/

namespace Machine

/-- A run of so many steps that has not come to `stop` before it ends. -/
inductive PathBelow (arith : Op → Int → Int → Int) (c : Code) (stop : Nat) :
    Nat → Machine → Machine → Prop
  | refl {m : Machine} : PathBelow arith c stop 0 m m
  | step {n : Nat} {m m₁ m' : Machine} (hstep : m.step arith c = some m₁) (hbelow : m.pc < stop)
      (hrest : PathBelow arith c stop n m₁ m') : PathBelow arith c stop (n + 1) m m'

variable {arith : Op → Int → Int → Int} {c : Code} {stop n k : Nat} {m m₁ m₂ : Machine}

namespace PathBelow

lemma trans (h : PathBelow arith c stop n m m₁) (h' : PathBelow arith c stop k m₁ m₂) :
    PathBelow arith c stop (n + k) m m₂ := by
  induction h with
  | refl => rwa [Nat.zero_add]
  | step hstep hbelow _ ih =>
    rw [Nat.add_right_comm]
    exact .step hstep hbelow (ih h')

lemma single (hstep : m.step arith c = some m₁) (hbelow : m.pc < stop) :
    PathBelow arith c stop 1 m m₁ :=
  .step hstep hbelow .refl

/-- The machine has only one way to go, so it comes to an index for the first time in one state. -/
lemma unique (h : PathBelow arith c stop n m m₁) (h' : PathBelow arith c stop k m m₂)
    (hstop₁ : m₁.pc = stop) (hstop₂ : m₂.pc = stop) : n = k ∧ m₁ = m₂ := by
  induction h generalizing k with
  | refl =>
    cases h' with
    | refl => exact ⟨rfl, rfl⟩
    | step _ hbelow _ => omega
  | step hstep hbelow _ ih =>
    cases h' with
    | refl => omega
    | step hstep' _ hrest' =>
      obtain rfl := Option.some.inj (hstep.symm.trans hstep')
      obtain ⟨rfl, rfl⟩ := ih hrest' hstop₁
      exact ⟨rfl, rfl⟩

end PathBelow

/-- A state in which code that computes a value has come to its end: nothing but registers has
changed. -/
structure Computed (m m' : Machine) (position : Nat) (v : Int) : Prop where
  pc : m'.pc = position
  accumulator : m'.registers 0 = v
  slots : m'.slots = m.slots
  returns : m'.returns = m.returns

lemma Computed.pc_lt {position : Nat} {v : Int} (h : m.Computed m₁ position v)
    (hlt : position < stop) : m₁.pc < stop := by
  rwa [h.pc]

end Machine

open Machine

/-! ### Expressions -/

/-- The code of a simple expression is run from its first to its last instruction and leaves the
value of the expression. The scratch register is left alone if there is no operation. -/
def Part.Evaluates (arith : Op → Int → Int → Int) (c : Code) : Part → Builder → Builder → Prop
  | .expression e, b, b' => ∀ (m : Machine) (stop : Nat), e.IsSimple → b'.Within c →
      m.pc = b.position → b'.position ≤ stop →
      ∃ v m', e.valueIn arith c.slots m.slots = some v ∧
        PathBelow arith c stop e.codeSize m m' ∧ m.Computed m' b'.position v ∧
        (e.IsPlain → m'.registers 1 = m.registers 1)
  | .arguments _ _, _, _ | .statement _, _, _ | .statements _, _, _ => True

namespace Part.Evaluates

variable {arith : Op → Int → Int → Int} {c : Code} {b b₁ b₂ : Builder} {l : Option Location}

lemma constant {value : Binary64} {n : Int} (hvalue : value.truncate = .ok n) :
    Evaluates arith c (.expression (.constant value l)) b
      (b.append (.mov (.imm n) accumulator)) := by
  intro m stop _ hwithin hpc hstop
  have hinstr := hwithin.getElem?_append
  rw [← hpc] at hinstr
  rw [Builder.position_append, ← hpc] at hstop
  refine ⟨n, m.load 0 n, ?_, .single (step_mov_imm hinstr) hstop, ?_, fun _ => by simp⟩
  · simp [Node.valueIn, hvalue, Except.toOption]
  · exact ⟨by simp [hpc], by simp, rfl, rfl⟩

lemma symbol {x : String} :
    Evaluates arith c (.expression (.symbol x l)) b
      ((b.slotFor x).2.append (.mov (.slot (b.slotFor x).1) accumulator)) := by
  intro m stop _ hwithin hpc hstop
  have hinstr := hwithin.getElem?_append
  have hplace := ((Builder.Within.append _ _).trans hwithin).get?_slotFor
  rw [Builder.position_slotFor, ← hpc] at hinstr
  rw [Builder.position_append, Builder.position_slotFor, ← hpc] at hstop
  refine ⟨m.slots (b.slotFor x).1, m.load 0 (m.slots (b.slotFor x).1), ?_,
    .single (step_mov_slot hinstr) hstop, ?_, fun _ => by simp⟩
  · simp [Node.valueIn, hplace]
  · exact ⟨by simp [hpc], by simp, rfl, rfl⟩

lemma negation {operand : Node} (hoperand : Evaluates arith c (.expression operand) b b₁) :
    Evaluates arith c (.expression (.unary (some .sub) operand l)) b
      (b₁.append (.unOp .sub accumulator)) := by
  intro m stop hsimple hwithin hpc hstop
  rw [Builder.position_append] at hstop
  obtain ⟨v, m₁, hvalue, hpath, hend, hscratch⟩ := hoperand m stop hsimple.operand
    ((Builder.Within.append _ _).trans hwithin) hpc (by omega)
  have hinstr := hwithin.getElem?_append
  rw [← hend.pc] at hinstr
  have hpath' := hpath.trans (.single (step_unOp hinstr) (hend.pc_lt (by omega)))
  refine ⟨-v, _, ?_, hpath', ?_, fun hplain => ?_⟩
  · simp [Node.valueIn, hvalue]
  · exact ⟨by simp [hend.pc], by simp [hend.accumulator], hend.slots, hend.returns⟩
  · rw [registers_load, Function.update_of_ne (by decide)]
    exact hscratch fun n hn => hplain n (by simp [hn])

lemma binary {op : Option Op} {left right : Node}
    (hlowersRight : Lowers (.expression right) (b₁.append (.mov accumulator scratch)) b₂)
    (hleft : Evaluates arith c (.expression left) b b₁)
    (hright : Evaluates arith c (.expression right) (b₁.append (.mov accumulator scratch)) b₂) :
    Evaluates arith c (.expression (.binary op left right l)) b
      (b₂.append (.binOp scratch op accumulator)) := by
  intro m stop hsimple hwithin hpc hstop
  cases op with
  | none => exact absurd rfl (hsimple.operator none left right l (by simp))
  | some op =>
    have hwithin₂ := (Builder.Within.append _ _).trans hwithin
    have hwithin₁ := hlowersRight.within.trans hwithin₂
    rw [Builder.position_append] at hstop
    have hsize := hlowersRight.position
    rw [Builder.position_append] at hsize
    obtain ⟨x, m₁, hx, hpath₁, hend₁, -⟩ := hleft m stop hsimple.leftOperand
      ((Builder.Within.append _ _).trans hwithin₁) hpc (by omega)
    -- the left operand goes to the scratch register, where the right one leaves it alone
    have hpark := hwithin₁.getElem?_append
    rw [← hend₁.pc] at hpark
    obtain ⟨y, m₂, hy, hpath₂, hend₂, hscratch⟩ :=
      hright (m₁.load 1 (m₁.registers 0)) stop hsimple.rightOperand hwithin₂
        (by simp [hend₁.pc]) (by omega)
    have hkept : m₂.registers 1 = x := by
      rw [hscratch hsimple.isPlain_right, registers_load, Function.update_self, hend₁.accumulator]
    have hinstr := hwithin.getElem?_append
    rw [← hend₂.pc] at hinstr
    have hslots : m₂.slots = m.slots := hend₂.slots.trans hend₁.slots
    rw [slots_load, hend₁.slots] at hy
    have hpath := (hpath₁.trans (.single (step_mov_reg hpark) (hend₁.pc_lt (by omega)))).trans
      (hpath₂.trans (.single (step_binOp hinstr) (hend₂.pc_lt (by omega))))
    have hcount : left.codeSize + 1 + (right.codeSize + 1) =
        (Node.binary (some op) left right l).codeSize := by
      rw [Node.codeSize]
      omega
    rw [hcount] at hpath
    refine ⟨arith op x y, _, ?_, hpath, ?_, fun h => absurd h Node.not_isPlain_binary⟩
    · simp [Node.valueIn, hx, hy]
    · refine ⟨by simp [hend₂.pc], ?_, hslots, hend₂.returns.trans hend₁.returns⟩
      simp [hkept, hend₂.accumulator]

end Part.Evaluates

/-- Running the code of a simple expression computes its value. -/
lemma Lowers.evaluates {part : Part} {b b' : Builder} (h : Lowers part b b')
    (arith : Op → Int → Int → Int) (c : Code) : part.Evaluates arith c b b' := by
  induction h with
  | constant hvalue => exact Part.Evaluates.constant hvalue
  | symbol => exact Part.Evaluates.symbol
  | binary _ hright ihleft ihright => exact Part.Evaluates.binary hright ihleft ihright
  | negation _ ih => exact Part.Evaluates.negation ih
  | @call name es l =>
    intro m stop hsimple _ _ _
    exact absurd rfl (hsimple.noCall (.call name es l) (by simp))
  | noArguments | argument | evaluate | assign | giveBack | giveBackValue | conditional
  | conditionalElse | noStatements | cons => exact trivial

/-! ### Statements in their places -/

/-- The code of a row of statements is the code of its first part and that of the rest. -/
lemma Lowers.exists_of_append {ns ms : List Node} {b b' : Builder}
    (h : Lowers (.statements (ns ++ ms)) b b') :
    ∃ b₁, Lowers (.statements ns) b b₁ ∧ Lowers (.statements ms) b₁ b' := by
  induction ns generalizing b with
  | nil => exact ⟨b, .noStatements, h⟩
  | cons n ns ih =>
    cases h with
    | cons hfirst hrest =>
      obtain ⟨b₁, hns, hms⟩ := ih hrest
      exact ⟨b₁, .cons hfirst hns, hms⟩

/-- Every statement of a program has its place in the code, after the functions and the statements
before it. -/
lemma Program.exists_lowers_statement {p : Program} {c : Code} (h : p.lower = .ok c)
    {fs gs : List Function} {f : Function} (hf : p.functions = fs ++ f :: gs)
    {before after : List Node} {n : Node} (hn : f.body = before ++ n :: after) :
    ∃ b b' : Builder, Lowers (.statement n) b b' ∧ b'.Within c ∧
      b.position = (fs.map Function.codeSize).sum + (before.map Node.codeSize).sum := by
  obtain ⟨b, b', hposition, -, hbody, hwithin⟩ := Program.exists_lowers_function h hf
  rw [hn] at hbody
  obtain ⟨b₁, hbefore, hrest⟩ := hbody.exists_of_append
  cases hrest with
  | @cons _ _ _ b₂ _ hfirst hafter =>
    refine ⟨b₁, b₂, hfirst, hafter.within.trans hwithin, ?_⟩
    rw [hbefore.position, Builder.position_mark, hposition]
    rfl

/-! ### Conditionals -/

section Conditionals

variable (arith : Op → Int → Int → Int) {c : Code} {b b' b₁ b₂ b₃ : Builder}
  {e condition thenBranch elseBranch : Node} {l : Option Location} {label : String} {m : Machine}

/-- What was lowered has a value, whatever its variables are. -/
lemma Lowers.exists_value (h : Lowers (.expression e) b b') (he : e.IsSimple)
    (hwithin : b'.Within c) (slots : Int → Int) :
    ∃ v, e.valueIn arith c.slots slots = some v := by
  obtain ⟨v, -, hvalue, -⟩ := h.evaluates arith c
    ⟨b.position, fun _ => 0, slots, fun _ => 0, false, []⟩ b'.position he hwithin rfl le_rfl
  exact ⟨v, hvalue⟩

/-- After the condition, a comparison and a jump lead to the first branch if the value is not zero,
and past it otherwise. -/
lemma Lowers.test (h : Lowers (.expression condition) b b₁) (hcondition : condition.IsSimple)
    (hlabel : (b₁.append (.cmp (.imm 0) accumulator)).newLabel = (label, b₂))
    (hjump : (b₂.append (.jez (.label label))).Within c)
    (hmark : c.labels.get? label = some (b₃.position : Int)) (hpc : m.pc = b.position)
    (stop : Nat) (hstop : (b₂.append (.jez (.label label))).position ≤ stop) :
    ∃ v m', condition.valueIn arith c.slots m.slots = some v ∧
      PathBelow arith c stop (condition.codeSize + 2) m m' ∧
      (m'.pc = if v = 0 then b₃.position else (b₂.append (.jez (.label label))).position) ∧
      m'.slots = m.slots ∧ m'.returns = m.returns := by
  have hposition := Builder.position_of_newLabel hlabel
  have hwithin := (Builder.Within.newLabel hlabel).trans ((Builder.Within.append _ _).trans hjump)
  rw [Builder.position_append, hposition, Builder.position_append] at hstop
  obtain ⟨v, m₁, hvalue, hpath, hend, -⟩ := h.evaluates arith c m stop hcondition
    ((Builder.Within.append _ _).trans hwithin) hpc (by omega)
  have hcmp := hwithin.getElem?_append
  rw [← hend.pc] at hcmp
  have hjez := hjump.getElem?_append
  rw [hposition, Builder.position_append, ← hend.pc] at hjez
  rw [← hend.pc] at hstop
  have hstep₁ : m₁.step arith c = some _ := step_cmp hcmp
  have hstep₂ : Machine.step arith c { m₁ with pc := m₁.pc + 1, zero := m₁.registers 0 == 0 } =
      some _ := step_jez hjez hmark
  have htest := PathBelow.step hstep₁ (by omega) (.single hstep₂ hstop)
  refine ⟨v, _, hvalue, hpath.trans htest, ?_, hend.slots, hend.returns⟩
  simp [hend.accumulator, hend.pc, hposition]

/-- The code of a conditional with two branches ends with that of the second one, also if the first
one was executed. -/
lemma Lowers.run_conditional
    (h : Lowers (.statement (.conditional condition thenBranch elseBranch l)) b b')
    (hwithin : b'.Within c) (hne : elseBranch ≠ .missing) (hcondition : condition.IsSimple)
    (hthen : thenBranch.IsSimple) (helse : elseBranch.IsSimple) (hpc : m.pc = b.position) :
    ∃ x y z n m', condition.valueIn arith c.slots m.slots = some x ∧
      thenBranch.valueIn arith c.slots m.slots = some y ∧
      elseBranch.valueIn arith c.slots m.slots = some z ∧
      (n = condition.codeSize + 2 + (if x = 0 then 0 else thenBranch.codeSize) +
        elseBranch.codeSize) ∧
      PathBelow arith c b'.position n m m' ∧ m.Computed m' b'.position z := by
  cases h with
  | conditional => exact absurd rfl hne
  | @conditionalElse _ _ _ _ _ b₁ b₂ b₃ _ label hlowers hlabel hlowersThen hfree hlowersElse =>
    have hwithin₃ := hlowersElse.within.trans hwithin
    have hwithinThen := (Builder.Within.mark _ _).trans hwithin₃
    have hsizeThen := hlowersThen.position
    have hsizeElse := hlowersElse.position
    rw [Builder.position_mark] at hsizeElse
    obtain ⟨x, m₁, hx, hpath₁, hpc₁, hslots₁, hreturns₁⟩ := hlowers.test arith
      hcondition hlabel (hlowersThen.within.trans hwithinThen) (hwithin₃.get?_mark hfree) hpc
      b'.position (by omega)
    -- whatever the condition, the machine comes to the mark between the branches
    obtain ⟨y, m₂, hy, hpath₂, hpc₂, hslots₂, hreturns₂⟩ : ∃ y m₂,
        thenBranch.valueIn arith c.slots m.slots = some y ∧
        PathBelow arith c b'.position (if x = 0 then 0 else thenBranch.codeSize) m₁ m₂ ∧
        m₂.pc = b₃.position ∧ m₂.slots = m.slots ∧ m₂.returns = m.returns := by
      by_cases hzero : x = 0
      · rw [if_pos hzero] at hpc₁
        obtain ⟨y, hy⟩ := hlowersThen.exists_value arith hthen hwithinThen m.slots
        refine ⟨y, m₁, hy, ?_, hpc₁, hslots₁, hreturns₁⟩
        rw [if_pos hzero]
        exact .refl
      · rw [if_neg hzero] at hpc₁ ⊢
        obtain ⟨y, m₂, hy, hpath₂, hend₂, -⟩ := hlowersThen.evaluates arith c m₁
          b'.position hthen hwithinThen hpc₁ (by omega)
        rw [hslots₁] at hy
        exact ⟨y, m₂, hy, hpath₂, hend₂.pc, hend₂.slots.trans hslots₁,
          hend₂.returns.trans hreturns₁⟩
    obtain ⟨z, m₃, hz, hpath₃, hend₃, -⟩ := hlowersElse.evaluates arith c m₂
      b'.position helse hwithin hpc₂ le_rfl
    rw [hslots₂] at hz
    exact ⟨x, y, z, _, m₃, hx, hy, hz, rfl, (hpath₁.trans hpath₂).trans hpath₃,
      hend₃.pc, hend₃.accumulator, hend₃.slots.trans hslots₂, hend₃.returns.trans hreturns₂⟩

end Conditionals

/-- A conditional with two branches leaves the value of the second one, whatever the condition is.
From the first instruction of the statement the machine comes to the place after the last one; it
has executed the code of the second branch in any case, and the code of the first one if the
condition is not zero. So what it leaves is the value of the branch that was meant exactly if the
condition is zero or both branches have the same value. -/
theorem conditional_leaves_second (arith : Op → Int → Int → Int) (p : Program) (c : Code)
    (hlower : p.lower = .ok c) (fs gs : List Function) (f : Function)
    (hf : p.functions = fs ++ f :: gs) (before after : List Node)
    (condition thenBranch elseBranch : Node) (l : Option Location)
    (hbody : f.body = before ++ .conditional condition thenBranch elseBranch l :: after)
    (hne : elseBranch ≠ .missing) (hcondition : condition.IsSimple)
    (hthen : thenBranch.IsSimple) (helse : elseBranch.IsSimple) (m : Machine)
    (hpc : m.pc = (fs.map Function.codeSize).sum + (before.map Node.codeSize).sum) :
    let stop := m.pc + (Node.conditional condition thenBranch elseBranch l).codeSize
    ∃ x y z, condition.valueIn arith c.slots m.slots = some x ∧
      thenBranch.valueIn arith c.slots m.slots = some y ∧
      elseBranch.valueIn arith c.slots m.slots = some z ∧
      (∃ n m', PathBelow arith c stop n m m' ∧ m'.pc = stop) ∧
      ∀ n m', PathBelow arith c stop n m m' → m'.pc = stop →
        m'.registers 0 = z ∧ m'.slots = m.slots ∧ m'.returns = m.returns ∧
        (n = condition.codeSize + 2 + (if x = 0 then 0 else thenBranch.codeSize) +
          elseBranch.codeSize) ∧
        (m'.registers 0 = (if x = 0 then z else y) ↔ x = 0 ∨ y = z) := by
  intro stop
  obtain ⟨b, b', hlowers, hwithin, hposition⟩ := Program.exists_lowers_statement hlower hf hbody
  rw [← hposition] at hpc
  have hstop : b'.position = stop := by
    rw [hlowers.position, ← hpc]
    rfl
  obtain ⟨x, y, z, n, m₁, hx, hy, hz, hn, hpath, hend⟩ :=
    hlowers.run_conditional arith hwithin hne hcondition hthen helse hpc
  rw [hstop] at hpath hend
  refine ⟨x, y, z, hx, hy, hz, ⟨n, m₁, hpath, hend.pc⟩, fun k m' hpath' hpc' => ?_⟩
  obtain ⟨rfl, rfl⟩ := hpath.unique hpath' hend.pc hpc'
  refine ⟨hend.accumulator, hend.slots, hend.returns, hn, ?_⟩
  rw [hend.accumulator]
  by_cases hzero : x = 0
  · simp [hzero]
  · simp [hzero, eq_comm]

lemma Node.isSimple_constant (v : Binary64) (l : Option Location) : (constant v l).IsSimple :=
  ⟨by simp [kind], by simp, by simp⟩

/-- The function `fun main() { if (1) 2 else 3; return; }`. -/
def Function.choose : Function where
  name := "main"
  body := [.conditional (.constant (.ofNat 1) none) (.constant (.ofNat 2) none)
    (.constant (.ofNat 3) none) none, .giveBack .missing none]
  location := none

/-- The condition is one, and still the value of the second branch is left. -/
theorem conditional_leaves_second_choose :
    ∃ (c : Code) (n : Nat) (m' : Machine), Program.lower ⟨[.choose]⟩ = .ok c ∧
      (Node.constant (.ofNat 1) none).valueIn Op.onIntegers c.slots (fun _ => 0) = some 1 ∧
      (Node.constant (.ofNat 2) none).valueIn Op.onIntegers c.slots (fun _ => 0) = some 2 ∧
      PathBelow Op.onIntegers c 5 n ⟨0, fun _ => 0, fun _ => 0, fun _ => 0, false, [7]⟩ m' ∧
      m'.pc = 5 ∧ n = 5 ∧ m'.registers 0 = 3 := by
  have hlower : Program.lower ⟨[.choose]⟩ = .ok _ := rfl
  obtain ⟨x, y, z, hx, hy, hz, ⟨n, m', hpath, hstop⟩, hleaves⟩ :=
    conditional_leaves_second Op.onIntegers ⟨[.choose]⟩ _ hlower [] [] .choose rfl [] _ _ _ _ _ rfl
      (by simp) (Node.isSimple_constant _ _) (Node.isSimple_constant _ _)
      (Node.isSimple_constant _ _) ⟨0, fun _ => 0, fun _ => 0, fun _ => 0, false, [7]⟩ rfl
  obtain ⟨hregister, -, -, hn, -⟩ := hleaves n m' hpath hstop
  obtain rfl : 1 = x := Option.some.inj hx
  obtain rfl : 3 = z := Option.some.inj hz
  exact ⟨_, n, m', hlower, rfl, rfl, hpath, hstop, hn, hregister⟩

end TinyCompiler
