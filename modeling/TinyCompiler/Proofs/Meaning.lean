import Mathlib.Logic.Function.Basic
import TinyCompiler.Program.Lowering
import TinyCompiler.Proofs.Tree

/-!
# What programs mean

Running a function changes the variables of the program, which all functions share, and computes
values one after the other; the value computed last is at hand until the next one is computed, and a
function that returns nothing leaves it as it is. The relation `Means` says what a part of a program
does, without saying how. What the operators compute is left open (`arith`).

Code does this only for programs that keep to the convention of registers: see
`Program.KeepsConvention`.
-/

namespace TinyCompiler

/-- What a running program can see: its variables and the value that was computed last. -/
structure Situation where
  store : String → Int
  accumulator : Int

/-- Something to be done. -/
inductive Task where
  /-- To compute the value of an expression. -/
  | expression (e : Node)
  /-- To compute the values of arguments from left to right. -/
  | arguments (es : List Node)
  /-- To go on with a function up to its return. -/
  | body (ns : List Node)

/-- Doing something in the first situation leads to the second one. -/
inductive Means (arith : Op → Int → Int → Int) (p : Program) : Task → Situation → Situation → Prop
  | constant {value : Binary64} {n : Int} {l : Option Location} {s : Situation}
      (hvalue : value.truncate = .ok n) :
      Means arith p (.expression (.constant value l)) s ⟨s.store, n⟩
  | symbol {x : String} {l : Option Location} {s : Situation} :
      Means arith p (.expression (.symbol x l)) s ⟨s.store, s.store x⟩
  | binary {op : Op} {left right : Node} {l : Option Location} {s s₁ s₂ : Situation}
      (hleft : Means arith p (.expression left) s s₁)
      (hright : Means arith p (.expression right) s₁ s₂) :
      Means arith p (.expression (.binary (some op) left right l)) s
        ⟨s₂.store, arith op s₁.accumulator s₂.accumulator⟩
  | negation {operand : Node} {l : Option Location} {s s₁ : Situation}
      (hoperand : Means arith p (.expression operand) s s₁) :
      Means arith p (.expression (.unary (some .sub) operand l)) s ⟨s₁.store, -s₁.accumulator⟩
  | call {name : String} {es : List Node} {l : Option Location} {f : Function}
      {s s₁ s₂ : Situation} (harguments : Means arith p (.arguments es) s s₁)
      (hf : f ∈ p.functions) (hname : f.name = name) (hbody : Means arith p (.body f.body) s₁ s₂) :
      Means arith p (.expression (.call name es l)) s s₂
  | noArguments {s : Situation} : Means arith p (.arguments []) s s
  | argument {e : Node} {es : List Node} {s s₁ s₂ : Situation}
      (hfirst : Means arith p (.expression e) s s₁) (hrest : Means arith p (.arguments es) s₁ s₂) :
      Means arith p (.arguments (e :: es)) s s₂
  | evaluate {e : Node} {l : Option Location} {ns : List Node} {s s₁ s₂ : Situation}
      (hvalue : Means arith p (.expression e) s s₁) (hrest : Means arith p (.body ns) s₁ s₂) :
      Means arith p (.body (.evaluate e l :: ns)) s s₂
  | assign {x : String} {e : Node} {l : Option Location} {ns : List Node} {s s₁ s₂ : Situation}
      (hvalue : Means arith p (.expression e) s s₁)
      (hrest : Means arith p (.body ns)
        ⟨Function.update s₁.store x s₁.accumulator, s₁.accumulator⟩ s₂) :
      Means arith p (.body (.assign x e l :: ns)) s s₂
  | giveBack {l : Option Location} {ns : List Node} {s : Situation} :
      Means arith p (.body (.giveBack .missing l :: ns)) s s
  | giveBackValue {e : Node} {l : Option Location} {ns : List Node} {s s₁ : Situation}
      (hvalue : Means arith p (.expression e) s s₁) :
      Means arith p (.body (.giveBack e l :: ns)) s s₁
  | conditionalTrue {condition thenBranch elseBranch : Node} {l : Option Location} {ns : List Node}
      {s s₁ s₂ s₃ : Situation} (hcondition : Means arith p (.expression condition) s s₁)
      (htrue : s₁.accumulator ≠ 0) (hthen : Means arith p (.expression thenBranch) s₁ s₂)
      (hrest : Means arith p (.body ns) s₂ s₃) :
      Means arith p (.body (.conditional condition thenBranch elseBranch l :: ns)) s s₃
  | conditionalFalse {condition thenBranch : Node} {l : Option Location} {ns : List Node}
      {s s₁ s₂ : Situation} (hcondition : Means arith p (.expression condition) s s₁)
      (hfalse : s₁.accumulator = 0) (hrest : Means arith p (.body ns) s₁ s₂) :
      Means arith p (.body (.conditional condition thenBranch .missing l :: ns)) s s₂
  | conditionalElse {condition thenBranch elseBranch : Node} {l : Option Location} {ns : List Node}
      {s s₁ s₂ s₃ : Situation} (hcondition : Means arith p (.expression condition) s s₁)
      (hfalse : s₁.accumulator = 0) (helse : Means arith p (.expression elseBranch) s₁ s₂)
      (hrest : Means arith p (.body ns) s₂ s₃) :
      Means arith p (.body (.conditional condition thenBranch elseBranch l :: ns)) s s₃

/-- A tree in which no operation and no call occurs. Its code leaves the scratch register alone. -/
def Node.IsPlain (e : Node) : Prop := ∀ n ∈ e.nodes, n.kind ≠ .binary ∧ n.kind ≠ .call

lemma Node.not_isPlain_binary {op : Option Op} {left right : Node} {l : Option Location} :
    ¬ (Node.binary op left right l).IsPlain := by
  intro h
  exact (h (.binary op left right l) (by simp)).1 rfl

lemma Node.not_isPlain_call {name : String} {es : List Node} {l : Option Location} :
    ¬ (Node.call name es l).IsPlain := by
  intro h
  exact (h (.call name es l) (by simp)).2 rfl

/-- What a program must keep to so that its code does what it means: registers are not saved, so a
right operand must not need the register that keeps the left one; both branches of a conditional
with a second branch would be executed; and a function that does not return would go on with the
code of the next one. -/
structure Program.KeepsConvention (p : Program) : Prop where
  declared : ∀ name es l, Node.call name es l ∈ p.nodes → ∃ f ∈ p.functions, f.name = name
  plainRight : ∀ op left right l, Node.binary op left right l ∈ p.nodes → right.IsPlain
  noElse : ∀ condition thenBranch elseBranch l,
    Node.conditional condition thenBranch elseBranch l ∈ p.nodes → elseBranch = .missing
  returns : ∀ f ∈ p.functions, ∃ value l, f.body.getLast? = some (.giveBack value l)

end TinyCompiler
