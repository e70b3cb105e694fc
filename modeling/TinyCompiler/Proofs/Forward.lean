import TinyCompiler.Proofs.Extension
import TinyCompiler.Proofs.Machine

/-!
# Code runs forward

The code of a function is one stretch of instructions, and the stretches stand in the order of the
functions, each as long as the size of its function says (`Function.codeSize`). A conditional jumps
to the place after its first branch. A branch is never empty, so such a jump passes at least one
instruction, and as the branch is part of the function, it does not leave the stretch
(`Lowers.runsOnward`). Nothing else goes anywhere but to the next instruction, calls and returns
apart: between these, every step of a machine is a step forward (`Machine.Stretch.le_pc`).
-/

namespace TinyCompiler

/-! ### Stretches of code -/

/-- An instruction does not go back: it jumps past at least one instruction and not past a limit, or
it does not jump. Calls and returns are not looked at. -/
def Instr.GoesOnward (c : Code) (index limit : Nat) : Instr → Prop
  | .jez target => ∃ (name : String) (place : Nat), target = .label name ∧
      c.labels.get? name = some (place : Int) ∧ index + 2 ≤ place ∧ place ≤ limit
  | .jmp _ => False
  | _ => True

lemma Instr.GoesOnward.mono {c : Code} {index limit limit' : Nat} {i : Instr}
    (h : i.GoesOnward c index limit) (hle : limit ≤ limit') : i.GoesOnward c index limit' := by
  cases i with
  | jez target =>
    obtain ⟨name, place, htarget, hplace, hlow, hhigh⟩ := h
    exact ⟨name, place, htarget, hplace, hlow, hhigh.trans hle⟩
  | _ => exact h

/-- No instruction of a stretch of code goes back, and none goes past its end. -/
def Code.RunsOnward (c : Code) (low high : Nat) : Prop :=
  ∀ index, low ≤ index → index < high → ∀ i, c.instrs[index]? = some i → i.GoesOnward c index high

namespace Code.RunsOnward

variable {c : Code} {low mid high : Nat} {b : Builder}

lemma refl (c : Code) (low : Nat) : c.RunsOnward low low := by
  intro index hlow hhigh
  omega

/-- Two stretches of which the second begins where the first one ends. -/
lemma trans (h : c.RunsOnward low mid) (h' : c.RunsOnward mid high) (hle : mid ≤ high) :
    c.RunsOnward low high := by
  intro index hlow hhigh i hi
  by_cases hmid : index < mid
  · exact (h index hlow hmid i hi).mono hle
  · exact h' index (by omega) hhigh i hi

/-- One more instruction, which is no jump. -/
lemma append {i : Instr} (h : c.RunsOnward low b.position) (hc : (b.append i).Within c)
    (hi : ∀ index limit, i.GoesOnward c index limit) :
    c.RunsOnward low (b.append i).position := by
  rw [Builder.position_append]
  refine h.trans (fun index hlow hhigh j hj => ?_) (Nat.le_succ _)
  obtain rfl : index = b.position := by omega
  obtain rfl := Option.some.inj (hc.getElem?_append.symm.trans hj)
  exact hi _ _

/-- A jump past a stretch that is not empty. -/
lemma branch {label : String} (h : c.RunsOnward low b.position)
    (hc : (b.append (.jez (.label label))).Within c)
    (hbranch : c.RunsOnward (b.position + 1) high) (hlt : b.position + 1 < high)
    (hplace : c.labels.get? label = some (high : Int)) : c.RunsOnward low high := by
  have hjump : c.RunsOnward b.position high := by
    intro index hlow hhigh i hi
    rcases Nat.eq_or_lt_of_le hlow with rfl | hlow
    · obtain rfl := Option.some.inj (hc.getElem?_append.symm.trans hi)
      exact ⟨label, high, rfl, hplace, hlt, le_rfl⟩
    · exact hbranch index hlow hhigh i hi
  exact h.trans hjump (by omega)

end Code.RunsOnward

/-! ### The code of a part -/

namespace Lowers

variable {part : Part} {e : Node} {b b' b₁ b₂ b₃ : Builder} {label : String} {c : Code}

lemma position_le (h : Lowers part b b') : b.position ≤ b'.position :=
  h.position ▸ Nat.le_add_right _ _

/-- No expression becomes nothing. -/
lemma codeSize_pos (h : Lowers (.expression e) b b') : 0 < e.codeSize := by
  cases h <;> simp [Node.codeSize]

/-- The code of a conditional up to the place that its label marks: the condition, the test and the
first branch. -/
lemma runsOnward_branch (hcondition : b₁.Within c → c.RunsOnward b.position b₁.position)
    (hlabel : (b₁.append (.cmp (.imm 0) accumulator)).newLabel = (label, b₂))
    (hthen : Lowers (.expression e) (b₂.append (.jez (.label label))) b₃)
    (hbranch : b₃.Within c →
      c.RunsOnward (b₂.append (.jez (.label label))).position b₃.position)
    (hfree : b₃.labels.get? label = none) (hc : (b₃.mark label).Within c) :
    c.RunsOnward b.position b₃.position := by
  have hc₃ := (Builder.Within.mark _ _).trans hc
  have hjump := hthen.within.trans hc₃
  have htest := (Builder.Within.newLabel hlabel).trans ((Builder.Within.append _ _).trans hjump)
  have hcmp := (hcondition ((Builder.Within.append _ _).trans htest)).append htest
    fun _ _ => trivial
  rw [← Builder.position_of_newLabel hlabel] at hcmp
  have hsize := hthen.position
  have hpos := hthen.codeSize_pos
  rw [Builder.position_append] at hbranch hsize
  refine hcmp.branch hjump (hbranch hc₃) ?_ (hc.get?_mark hfree)
  simp only [Part.codeSize] at hsize
  omega

/-- The code of a part goes forward and does not leave itself. -/
lemma runsOnward (h : Lowers part b b') (hc : b'.Within c) :
    c.RunsOnward b.position b'.position := by
  induction h with
  | constant | giveBack => exact (Code.RunsOnward.refl c _).append hc fun _ _ => trivial
  | @symbol x _ b =>
    have hplaced : c.RunsOnward b.position (b.slotFor x).2.position := by
      rw [Builder.position_slotFor]
      exact .refl c _
    exact hplaced.append hc fun _ _ => trivial
  | binary _ hright ihleft ihright =>
    have hc₂ := (Builder.Within.append _ _).trans hc
    have hc₁ := hright.within.trans hc₂
    have hleft := (ihleft ((Builder.Within.append _ _).trans hc₁)).append hc₁ fun _ _ => trivial
    exact (hleft.trans (ihright hc₂) hright.position_le).append hc fun _ _ => trivial
  | negation _ ih | call _ ih | giveBackValue _ ih =>
    exact (ih ((Builder.Within.append _ _).trans hc)).append hc fun _ _ => trivial
  | noArguments | noStatements => exact .refl c _
  | argument _ hrest ihfirst ihrest =>
    have hc₁ := hrest.within.trans hc
    have hfirst := (ihfirst ((Builder.Within.append _ _).trans hc₁)).append hc₁ fun _ _ => trivial
    exact hfirst.trans (ihrest hc) hrest.position_le
  | evaluate _ ih => exact ih hc
  | @assign x _ _ _ b₁ _ ih =>
    have hc₁ := (Builder.Within.append _ _).trans hc
    have hvalue := ih ((Builder.Within.slotFor b₁ x).trans hc₁)
    rw [← Builder.position_slotFor b₁ x] at hvalue
    exact hvalue.append hc fun _ _ => trivial
  | conditional _ hlabel hthen hfree ihcondition ihthen =>
    rw [Builder.position_mark]
    exact runsOnward_branch ihcondition hlabel hthen ihthen hfree hc
  | conditionalElse _ hlabel hthen hfree helse ihcondition ihthen ihelse =>
    have hfirst :=
      runsOnward_branch ihcondition hlabel hthen ihthen hfree (helse.within.trans hc)
    exact hfirst.trans (ihelse hc) helse.position_le
  | cons _ hrest ihfirst ihrest =>
    exact (ihfirst (hrest.within.trans hc)).trans (ihrest hc) hrest.position_le

end Lowers

/-! ### The stretches of the functions -/

namespace Program

variable {p : Program} {f : Function} {k : Nat} {c : Code}

/-- The index at which the code of a function begins. The functions are numbered from zero, and the
index for the number after the last one is that of the end. -/
def start (p : Program) (k : Nat) : Nat := ((p.functions.take k).map Function.codeSize).sum

lemma start_succ (hf : p.functions[k]? = some f) : p.start (k + 1) = p.start k + f.codeSize := by
  simp [start, List.take_add_one, hf]

lemma functions_eq_append (hf : p.functions[k]? = some f) :
    p.functions = p.functions.take k ++ f :: p.functions.drop (k + 1) := by
  obtain ⟨hk, rfl⟩ := List.getElem?_eq_some_iff.mp hf
  rw [← List.drop_eq_getElem_cons hk, List.take_append_drop]

/-- The stretches of all functions are the whole code. -/
lemma start_length (h : p.lower = .ok c) : p.start p.functions.length = c.instrs.length := by
  obtain ⟨b, hb, -, rfl⟩ := Program.lower_eq_ok_iff.mp h
  rw [Builder.length_instrs_code, position_of_foldlM_lower hb, start, List.take_length]
  exact (Nat.zero_add _).symm

/-- The code of a function does not leave its stretch by a jump. -/
lemma runsOnward (h : p.lower = .ok c) (k : Nat) :
    c.RunsOnward (p.start k) (p.start (k + 1)) := by
  cases hf : p.functions[k]? with
  | none =>
    have hend : p.start (k + 1) = p.start k := by simp [start, List.take_add_one, hf]
    rw [hend]
    exact .refl c _
  | some f =>
    obtain ⟨b, b', hposition, -, hbody, hwithin⟩ :=
      exists_lowers_function h (functions_eq_append hf)
    have hend : b'.position = p.start (k + 1) := by
      rw [hbody.position, Builder.position_mark, hposition, start_succ hf]
      rfl
    have hstart : (b.mark f.name).position = p.start k := hposition
    rw [← hstart, ← hend]
    exact hbody.runsOnward hwithin

end Program

/-! ### Runs between calls -/

namespace Machine

variable {arith : Op → Int → Int → Int} {c : Code} {low high n : Nat} {m m' : Machine}

lemma pc_of_write {v : Int} {o : Operand} (h : m.write v o = some m') : m'.pc = m.pc + 1 := by
  cases o <;> cases h <;> rfl

/-- What is neither a call nor a return leads forward if it goes onward at all. -/
lemma pc_of_execute {i : Instr} (h : m.execute arith c i = some m')
    (hi : i.GoesOnward c m.pc high) (hcall : ∀ target, i ≠ .call target) (hret : i ≠ .ret) :
    m'.pc = m.pc + 1 ∨ m.pc + 2 ≤ m'.pc ∧ m'.pc ≤ high := by
  cases i with
  | binOp lhs op rhs =>
    cases op with
    | none => cases h
    | some op =>
      simp only [execute, Option.bind_eq_bind, Option.bind_eq_some_iff] at h
      obtain ⟨x, -, y, -, h⟩ := h
      exact .inl (pc_of_write h)
  | unOp op operand =>
    cases op with
    | sub =>
      simp only [execute, Option.bind_eq_bind, Option.bind_eq_some_iff] at h
      obtain ⟨x, -, h⟩ := h
      exact .inl (pc_of_write h)
    | add | mul | div => cases h
  | mov src dst =>
    simp only [execute, Option.bind_eq_bind, Option.bind_eq_some_iff] at h
    obtain ⟨x, -, h⟩ := h
    exact .inl (pc_of_write h)
  | cmp a b =>
    simp only [execute, Option.bind_eq_bind, Option.bind_eq_some_iff] at h
    obtain ⟨x, -, y, -, h⟩ := h
    cases h
    exact .inl rfl
  | jmp target => exact hi.elim
  | jez target =>
    obtain ⟨name, place, rfl, hplace, hlow, hhigh⟩ := hi
    rw [execute, target?_of_get? hplace] at h
    obtain rfl := Option.some.inj h
    cases m.zero with
    | true => exact .inr ⟨hlow, hhigh⟩
    | false => exact .inl rfl
  | call target => exact absurd rfl (hcall target)
  | ret => exact absurd rfl hret
  | other shown => cases h

/-- A run of so many steps through a stretch of code, in which nothing is called and nothing
returns. -/
inductive Stretch (arith : Op → Int → Int → Int) (c : Code) (low high : Nat) :
    Nat → Machine → Machine → Prop
  | refl {m : Machine} : Stretch arith c low high 0 m m
  | step {n : Nat} {m m₁ m' : Machine} (hstep : m.step arith c = some m₁) (hlow : low ≤ m.pc)
      (hhigh : m.pc < high) (hcall : ∀ target, c.instrs[m.pc]? ≠ some (.call target))
      (hret : c.instrs[m.pc]? ≠ some .ret) (hrest : Stretch arith c low high n m₁ m') :
      Stretch arith c low high (n + 1) m m'

/-- A step between calls is a step forward. -/
lemma pc_of_step (hc : c.RunsOnward low high) (hstep : m.step arith c = some m')
    (hlow : low ≤ m.pc) (hhigh : m.pc < high)
    (hcall : ∀ target, c.instrs[m.pc]? ≠ some (.call target))
    (hret : c.instrs[m.pc]? ≠ some .ret) : m.pc < m'.pc ∧ m'.pc ≤ high := by
  simp only [step, Option.bind_eq_bind, Option.bind_eq_some_iff] at hstep
  obtain ⟨i, hi, hexecute⟩ := hstep
  have hpc := pc_of_execute hexecute (hc m.pc hlow hhigh i hi)
    (fun target heq => hcall target (heq ▸ hi)) (fun heq => hret (heq ▸ hi))
  omega

/-- A run between calls goes forward by at least as many instructions as it has steps, and not past
the end of the stretch. -/
lemma Stretch.le_pc (h : Stretch arith c low high n m m') (hc : c.RunsOnward low high) :
    m.pc + n ≤ m'.pc ∧ (0 < n → m'.pc ≤ high) := by
  induction h with
  | refl => simp
  | step hstep hlow hhigh hcall hret hrest ih =>
    obtain ⟨hlt, hle⟩ := pc_of_step hc hstep hlow hhigh hcall hret
    refine ⟨by omega, fun _ => ?_⟩
    cases hrest with
    | refl => exact hle
    | step => exact ih.2 (Nat.succ_pos _)

end Machine

/-! ### Layouts -/

/-- How the code of a program is laid out. -/
structure Code.LaidOut (p : Program) (c : Code) : Prop where
  /-- Labels are bound in the order of their places, none of which is outside the code. -/
  inOrder : c.InOrder
  /-- The name of a function marks the place after the code of the functions before it. -/
  starts : ∀ k f, p.functions[k]? = some f → c.labels.get? f.name = some (p.start k : Int)
  /-- After the code of the last function nothing is left. -/
  ends : p.start p.functions.length = c.instrs.length
  /-- A jump goes past the next instruction, and not past the end of its function. -/
  jumps : ∀ k index target, p.start k ≤ index → index < p.start (k + 1) →
    c.instrs[index]? = some (.jez target) →
    ∃ (name : String) (place : Nat), target = .label name ∧
      c.labels.get? name = some (place : Int) ∧ index + 2 ≤ place ∧ place ≤ p.start (k + 1)
  /-- Inside a function, a run between calls goes forward with every step. -/
  forward : ∀ arith k n m m', Machine.Stretch arith c (p.start k) (p.start (k + 1)) n m m' →
    m.pc + n ≤ m'.pc ∧ (0 < n → m'.pc ≤ p.start (k + 1))

/-- The code of a program is laid out in the order of its functions, by their sizes, and inside a
function it runs forward between calls. -/
theorem laidOut_of_lower (p : Program) (c : Code) (h : p.lower = .ok c) : c.LaidOut p := by
  have honward := fun k => Program.runsOnward h k
  refine ⟨inOrder_of_lower h, ?_, Program.start_length h, ?_, ?_⟩
  · intro k f hf
    exact Program.get?_of_lower h (Program.functions_eq_append hf)
  · intro k index target hlow hhigh hjump
    exact honward k index hlow hhigh _ hjump
  · intro arith k n m m' hrun
    exact hrun.le_pc (honward k)

/-- The functions `fun f() { if (x) 7 else g(x); }` and `fun g() { return -x; }`. -/
def Program.elsewhere : Program where
  functions := [
    ⟨"f", [.conditional (.symbol "x" none) (.constant (.ofNat 7) none)
      (.call "g" [.symbol "x" none] none) none], none⟩,
    ⟨"g", [.giveBack (.unary (some .sub) (.symbol "x" none) none) none], none⟩]

/-- The code of the first function has seven instructions, the third of which is a jump to the
fifth. -/
theorem laidOut_of_lower_elsewhere :
    ∃ c, Program.elsewhere.lower = .ok c ∧ c.LaidOut .elsewhere ∧
      c.instrs[2]? = some (.jez (.label "_0")) ∧
      c.labels = [("f", 0), ("_0", 4), ("g", 7)] ∧ c.instrs.length = 10 := by
  have hlower : Program.elsewhere.lower = .ok _ := rfl
  exact ⟨_, hlower, laidOut_of_lower _ _ hlower, rfl, rfl, rfl⟩

end TinyCompiler
