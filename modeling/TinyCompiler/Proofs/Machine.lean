import Mathlib.Logic.Function.Basic
import TinyCompiler.Proofs.Lowering

/-!
# The machine that runs code

The machine has registers, places for variables, memory, a flag for the last comparison, and a stack
of the indices at which calls go on. Instructions do what the table of the instruction set says of
them; what an operator computes is left open (`arith`), and an instruction of which the table says
nothing stops the machine.

A run is a `Path`: so many steps, before each of which at least `floor` return addresses are on the
stack. The floor tells the return of a function from the returns of the functions it calls.
-/

namespace TinyCompiler

/-- A state of the machine. -/
structure Machine where
  /-- The index of the next instruction. -/
  pc : Nat
  registers : Int → Int
  /-- The places of the variables, which all functions share. -/
  slots : Int → Int
  memory : Int → Int
  /-- Whether the last comparison found equality. -/
  zero : Bool
  /-- Where the calls that are under way go on, the innermost first. -/
  returns : List Nat

/-- The index that a label marks. -/
def Code.target? (c : Code) : Operand → Option Nat
  | .label name => (c.labels.get? name).bind Int.toNat?
  | _ => none

namespace Machine

/-- The value of an operand. -/
def read (m : Machine) : Operand → Option Int
  | .imm value => some value
  | .reg index => some (m.registers index)
  | .deref index => some (m.memory (m.registers index))
  | .slot index => some (m.slots index)
  | .label _ | .other _ => none

/-- Changes the value of an operand and goes on to the next instruction. -/
def write (m : Machine) (value : Int) : Operand → Option Machine
  | .reg index =>
    some { m with pc := m.pc + 1, registers := Function.update m.registers index value }
  | .deref index =>
    some { m with pc := m.pc + 1, memory := Function.update m.memory (m.registers index) value }
  | .slot index => some { m with pc := m.pc + 1, slots := Function.update m.slots index value }
  | .imm _ | .label _ | .other _ => none

/-- Does what an instruction says. -/
def execute (arith : Op → Int → Int → Int) (c : Code) (m : Machine) : Instr → Option Machine
  | .binOp lhs (some op) rhs => do
    let x ← m.read lhs
    let y ← m.read rhs
    m.write (arith op x y) rhs
  | .unOp .sub operand => do
    let x ← m.read operand
    m.write (-x) operand
  | .mov src dst => do
    let x ← m.read src
    m.write x dst
  | .cmp a b => do
    let x ← m.read a
    let y ← m.read b
    return { m with pc := m.pc + 1, zero := y - x == 0 }
  | .jmp target => do
    let index ← c.target? target
    return { m with pc := index }
  | .jez target => do
    let index ← c.target? target
    return { m with pc := if m.zero then index else m.pc + 1 }
  | .call target => do
    let index ← c.target? target
    return { m with pc := index, returns := (m.pc + 1) :: m.returns }
  | .ret =>
    match m.returns with
    | [] => none
    | index :: rest => some { m with pc := index, returns := rest }
  | .binOp _ none _ | .unOp _ _ | .other _ => none

/-- Executes the next instruction. The machine stops if there is none, or if there is nowhere to
return to. -/
def step (arith : Op → Int → Int → Int) (c : Code) (m : Machine) : Option Machine := do
  let i ← c.instrs[m.pc]?
  m.execute arith c i

/-! ### The instructions that code is made of -/

/-- A state in which a value was put into a register. -/
def load (m : Machine) (index value : Int) : Machine :=
  { m with pc := m.pc + 1, registers := Function.update m.registers index value }

/-- A state in which a value was put into the place of a variable. -/
def store (m : Machine) (index value : Int) : Machine :=
  { m with pc := m.pc + 1, slots := Function.update m.slots index value }

/-- A state in which a function was called whose code begins at an index. -/
def enter (m : Machine) (index : Nat) : Machine :=
  { m with pc := index, returns := (m.pc + 1) :: m.returns }

variable {arith : Op → Int → Int → Int} {c : Code} {m m' m₁ m₂ : Machine} {floor n k : Nat}

@[simp] lemma pc_load (m : Machine) (i v : Int) : (m.load i v).pc = m.pc + 1 := rfl

@[simp] lemma registers_load (m : Machine) (i v : Int) :
    (m.load i v).registers = Function.update m.registers i v := rfl

@[simp] lemma slots_load (m : Machine) (i v : Int) : (m.load i v).slots = m.slots := rfl

@[simp] lemma returns_load (m : Machine) (i v : Int) : (m.load i v).returns = m.returns := rfl

@[simp] lemma pc_store (m : Machine) (i v : Int) : (m.store i v).pc = m.pc + 1 := rfl

@[simp] lemma registers_store (m : Machine) (i v : Int) :
    (m.store i v).registers = m.registers := rfl

@[simp] lemma slots_store (m : Machine) (i v : Int) :
    (m.store i v).slots = Function.update m.slots i v := rfl

@[simp] lemma returns_store (m : Machine) (i v : Int) : (m.store i v).returns = m.returns := rfl

lemma step_of_getElem? {i : Instr} (h : c.instrs[m.pc]? = some i) :
    m.step arith c = m.execute arith c i := by
  simp [step, h]

lemma target?_of_get? {name : String} (h : c.labels.get? name = some (n : Int)) :
    c.target? (.label name) = some n := by
  rw [Code.target?, h]
  rfl

lemma step_mov_imm {v : Int} (h : c.instrs[m.pc]? = some (.mov (.imm v) accumulator)) :
    m.step arith c = some (m.load 0 v) := by
  rw [step_of_getElem? h]
  rfl

lemma step_mov_slot {i : Int} (h : c.instrs[m.pc]? = some (.mov (.slot i) accumulator)) :
    m.step arith c = some (m.load 0 (m.slots i)) := by
  rw [step_of_getElem? h]
  rfl

lemma step_mov_reg {i : Int} (h : c.instrs[m.pc]? = some (.mov accumulator (.reg i))) :
    m.step arith c = some (m.load i (m.registers 0)) := by
  rw [step_of_getElem? h]
  rfl

lemma step_mov_store {i : Int} (h : c.instrs[m.pc]? = some (.mov accumulator (.slot i))) :
    m.step arith c = some (m.store i (m.registers 0)) := by
  rw [step_of_getElem? h]
  rfl

lemma step_binOp {op : Op} (h : c.instrs[m.pc]? = some (.binOp scratch (some op) accumulator)) :
    m.step arith c = some (m.load 0 (arith op (m.registers 1) (m.registers 0))) := by
  rw [step_of_getElem? h]
  rfl

lemma step_binOp_none {lhs rhs : Operand} (h : c.instrs[m.pc]? = some (.binOp lhs none rhs)) :
    m.step arith c = none := by
  rw [step_of_getElem? h]
  rfl

lemma step_unOp (h : c.instrs[m.pc]? = some (.unOp .sub accumulator)) :
    m.step arith c = some (m.load 0 (-m.registers 0)) := by
  rw [step_of_getElem? h]
  rfl

lemma step_cmp (h : c.instrs[m.pc]? = some (.cmp (.imm 0) accumulator)) :
    m.step arith c = some { m with pc := m.pc + 1, zero := m.registers 0 == 0 } := by
  rw [step_of_getElem? h]
  simp [execute, read, accumulator]

lemma step_jez {name : String} (h : c.instrs[m.pc]? = some (.jez (.label name)))
    (hname : c.labels.get? name = some (n : Int)) :
    m.step arith c = some { m with pc := if m.zero then n else m.pc + 1 } := by
  rw [step_of_getElem? h, execute, target?_of_get? hname]
  rfl

lemma step_call {name : String} (h : c.instrs[m.pc]? = some (.call (.label name)))
    (hname : c.labels.get? name = some (n : Int)) :
    m.step arith c = some (m.enter n) := by
  rw [step_of_getElem? h, execute, target?_of_get? hname]
  rfl

lemma step_ret {rest : List Nat} (h : c.instrs[m.pc]? = some .ret)
    (hreturns : m.returns = n :: rest) :
    m.step arith c = some { m with pc := n, returns := rest } := by
  rw [step_of_getElem? h, execute, hreturns]

/-! ### Runs -/

/-- A run of so many steps, before each of which at least `floor` return addresses are there. -/
inductive Path (arith : Op → Int → Int → Int) (c : Code) (floor : Nat) :
    Nat → Machine → Machine → Prop
  | refl {m : Machine} : Path arith c floor 0 m m
  | step {n : Nat} {m m₁ m' : Machine} (hstep : m.step arith c = some m₁)
      (hfloor : floor ≤ m.returns.length) (hrest : Path arith c floor n m₁ m') :
      Path arith c floor (n + 1) m m'

namespace Path

/-- One run after the other. -/
lemma trans (h : Path arith c floor n m m₁) (h' : Path arith c floor k m₁ m₂) :
    Path arith c floor (n + k) m m₂ := by
  induction h with
  | refl => rwa [Nat.zero_add]
  | step hstep hfloor _ ih =>
    rw [Nat.add_right_comm]
    exact .step hstep hfloor (ih h')

lemma single (hstep : m.step arith c = some m₁) (hfloor : floor ≤ m.returns.length) :
    Path arith c floor 1 m m₁ :=
  .step hstep hfloor .refl

/-- A run above a floor is a run above every lower floor. -/
lemma mono {floor' : Nat} (hle : floor' ≤ floor) (h : Path arith c floor n m m') :
    Path arith c floor' n m m' := by
  induction h with
  | refl => exact .refl
  | step hstep hfloor _ ih => exact .step hstep (hle.trans hfloor) ih

/-- The machine has only one way to go: two runs that end below the floor end in the same state. -/
lemma unique (h : Path arith c floor n m m₁) (h' : Path arith c floor k m m₂)
    (hbelow₁ : m₁.returns.length < floor) (hbelow₂ : m₂.returns.length < floor) : m₁ = m₂ := by
  induction h generalizing k with
  | refl =>
    cases h' with
    | refl => rfl
    | step _ hfloor _ => omega
  | step hstep hfloor _ ih =>
    cases h' with
    | refl => omega
    | step hstep' _ hrest' =>
      obtain rfl := Option.some.inj (hstep.symm.trans hstep')
      exact ih hrest' hbelow₁

end Path

/-- In so many steps the machine gets from a state to one below the floor. -/
def Escapes (arith : Op → Int → Int → Int) (c : Code) (floor n : Nat) (m : Machine) : Prop :=
  ∃ m', Path arith c floor n m m' ∧ m'.returns.length < floor

namespace Escapes

/-- From a state above the floor there must be a step. -/
lemma exists_step (h : Escapes arith c floor n m) (habove : floor ≤ m.returns.length) :
    ∃ k m₁, n = k + 1 ∧ m.step arith c = some m₁ ∧ Escapes arith c floor k m₁ := by
  obtain ⟨m', hpath, hbelow⟩ := h
  cases hpath with
  | refl => omega
  | @step k _ m₁ _ hstep _ hrest => exact ⟨k, m₁, rfl, hstep, m', hrest, hbelow⟩

/-- The machine has only one way to go: what escapes still does so after any run above the floor. -/
lemma after {floor' : Nat} (h : Escapes arith c floor n m) (hpath : Path arith c floor' k m m₁)
    (hle : floor ≤ floor') : ∃ n', n' + k = n ∧ Escapes arith c floor n' m₁ := by
  induction hpath generalizing n with
  | refl => exact ⟨n, rfl, h⟩
  | step hstep hfloor _ ih =>
    obtain ⟨k, m₁', rfl, hstep', h'⟩ := h.exists_step (hle.trans hfloor)
    obtain rfl := Option.some.inj (hstep.symm.trans hstep')
    obtain ⟨n', hn', hescapes⟩ := ih h'
    exact ⟨n', by omega, hescapes⟩

end Escapes

end Machine

end TinyCompiler
