import TinyCompiler.Code.Builder
import TinyCompiler.Node

/-!
# From programs to code

Every expression leaves its value in the accumulator. An operation keeps its left operand in the
scratch register while the right one is evaluated, and the arguments of a call go to the registers
after these two, each as soon as it is evaluated. All variables of a program share one row of places
on the stack, given out in order of first use. A function is the label of its name; a conditional
makes up a label for the place after its first branch.
-/

namespace TinyCompiler

/-- The register in which every expression leaves its value. -/
def accumulator : Operand := .reg 0

/-- The register that keeps a left operand. -/
def scratch : Operand := .reg 1

/-- The register of an argument, counted from zero. -/
def argumentRegister (position : Nat) : Operand := .reg (2 + position)

/-- The whole number that a constant is loaded as: what stands after the point is dropped. -/
def Binary64.truncate : Binary64 → Except CodeError Int
  | .nan => .error .undefinedConstant
  | .infinite _ => .error .infiniteConstant
  | .finite negative significand exponent =>
    let whole := wholePart significand exponent
    .ok (if negative then -whole else whole)

namespace Node

mutual

/-- Adds the code of an expression. -/
def lowerExpression : Node → Builder → Except CodeError Builder
  | .constant value _, b => do
    let n ← value.truncate
    return b.append (.mov (.imm n) accumulator)
  | .symbol name _, b =>
    let (slot, b) := b.slotFor name
    .ok (b.append (.mov (.slot slot) accumulator))
  | .binary op left right _, b => do
    let b ← left.lowerExpression b
    let b ← right.lowerExpression (b.append (.mov accumulator scratch))
    return b.append (.binOp scratch op accumulator)
  | .unary (some .sub) operand _, b => do
    let b ← operand.lowerExpression b
    return b.append (.unOp .sub accumulator)
  | .unary none _ _, _ => .error (.malformed .noOperator)
  | .unary (some op) _ location, _ =>
    .error (.unsupported ("unary operator '" ++ op.sign.toString ++ "'") location
      (some "only unary '-' (negation) is supported"))
  | .call name arguments _, b => do
    let b ← lowerArguments 0 arguments b
    return b.append (.call (.label name))
  | .rowless (.call _) _, _ => .error (.malformed .noRow)
  | n, _ => .error (.unsupported ("expression " ++ n.kind.name) n.location none)
termination_by structural n => n

/-- Adds the code of arguments, the first of which has the given position. -/
def lowerArguments (position : Nat) : List Node → Builder → Except CodeError Builder
  | [], b => .ok b
  | n :: ns, b => do
    let b ← n.lowerExpression b
    lowerArguments (position + 1) ns (b.append (.mov accumulator (argumentRegister position)))
termination_by structural ns => ns

end

/-- Adds the code of a conditional. If the condition is zero, its code jumps to the place after the
first branch, where the second one stands if there is one. -/
def lowerConditional (condition thenBranch elseBranch : Node) (b : Builder) :
    Except CodeError Builder := do
  let b ← condition.lowerExpression b
  let (label, b) := (b.append (.cmp (.imm 0) accumulator)).newLabel
  let b ← thenBranch.lowerExpression (b.append (.jez (.label label)))
  let (_, b) ← b.bindLabel label none
  if elseBranch.isMissing then return b else elseBranch.lowerExpression b

/-- Adds the code of a statement. -/
def lowerStatement (b : Builder) : Node → Except CodeError Builder
  | .evaluate expression _ => expression.lowerExpression b
  | .assign name expression _ => do
    let b ← expression.lowerExpression b
    let (slot, b) := b.slotFor name
    return b.append (.mov accumulator (.slot slot))
  | .giveBack value _ => do
    let b ← if value.isMissing then .ok b else value.lowerExpression b
    return b.append .ret
  | .conditional condition thenBranch elseBranch _ =>
    lowerConditional condition thenBranch elseBranch b
  | .missing => .error (.malformed .noStatement)
  | n => .error (.unsupported ("statement " ++ n.kind.name) n.location none)

end Node

/-- Adds the code of a function, which its name marks. -/
def Function.lower (b : Builder) (f : Function) : Except CodeError Builder := do
  let (_, b) ← b.bindLabel f.name none
  f.body.foldlM Node.lowerStatement b

/-- The code of a program. New labels keep clear of the names of all functions. -/
def Program.lower (p : Program) : Except CodeError Code := do
  let b ← p.functions.foldlM Function.lower (Builder.empty (p.functions.map (·.name)))
  b.finish

/-! ### Trees

A tree that is no program has no code. Its functions are asked for their names before any code is
made, and for their bodies one after the other. -/

namespace Node

/-- The name of what stands for a function. -/
def declaredName (n : Node) : Except CodeError String :=
  match n.name? with
  | some name => .ok name
  | none => .error (.malformed (.unnamed n.kind))

/-- Adds the code of what stands for a function, whose name is bound before its body is looked
at. -/
def lowerDeclaration (b : Builder) : Node → Except CodeError Builder
  | .function name body location => Function.lower b ⟨name, body, location⟩
  | n => do
    let name ← n.declaredName
    let _ ← b.bindLabel name none
    throw (.malformed (if n.kind = .function then .noRow else .bodiless n.kind))

/-- The code of a tree. -/
def lower : Node → Except CodeError Code
  | .program functions _ => do
    let names ← functions.mapM declaredName
    let b ← functions.foldlM lowerDeclaration (Builder.empty names)
    b.finish
  | .rowless .program _ => .error (.malformed .noRow)
  | n => .error (.malformed (.notProgram n.kind))

end Node

/-- The code of a program's tree is the code of the program. -/
theorem Program.lower_toNode (p : Program) : p.toNode.lower = p.lower := by
  obtain ⟨functions⟩ := p
  have hnames : (functions.map Function.toNode).mapM Node.declaredName =
      .ok (functions.map (·.name)) := by
    induction functions with
    | nil => rfl
    | cons f fs ih =>
      rw [List.map_cons, List.mapM_cons, ih]
      rfl
  have hcode (b : Builder) : (functions.map Function.toNode).foldlM Node.lowerDeclaration b =
      functions.foldlM Function.lower b := by
    rw [List.foldlM_map]
    rfl
  simp only [Program.toNode, Node.lower, Program.lower, hnames, hcode]
  rfl

end TinyCompiler
