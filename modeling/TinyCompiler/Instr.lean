import TinyCompiler.Op
import TinyCompiler.Text.Quoted

/-!
# Instructions

The instructions of a machine with registers, variables on a stack and symbolic labels. What is no
operand or no instruction can stand in their places; only how it is shown is known of it. The
operator between two operands may be missing, like that of an expression.
-/

namespace TinyCompiler

/-- What an instruction works on. -/
inductive Operand where
  /-- A whole number itself. -/
  | imm (value : Int)
  /-- A register. -/
  | reg (index : Int)
  /-- The memory that a register points to. -/
  | deref (index : Int)
  /-- The place of a variable on the stack. -/
  | slot (index : Int)
  /-- The instruction that a label marks. -/
  | label (name : String)
  /-- Something that is no operand. -/
  | other (shown : String)
  deriving DecidableEq, Inhabited, Repr

/-- An instruction of the machine. -/
inductive Instr where
  /-- Puts `lhs op rhs` into `rhs`. -/
  | binOp (lhs : Operand) (op : Option Op) (rhs : Operand)
  /-- Applies an operator to its operand. -/
  | unOp (op : Op) (operand : Operand)
  /-- Copies `src` to `dst`. -/
  | mov (src dst : Operand)
  /-- Compares, for the jump that follows. -/
  | cmp (a b : Operand)
  /-- Jumps. -/
  | jmp (target : Operand)
  /-- Jumps if the last comparison found equality. -/
  | jez (target : Operand)
  /-- Calls a function. -/
  | call (target : Operand)
  /-- Ends a function. -/
  | ret
  /-- Something that is no instruction. -/
  | other (shown : String)
  deriving DecidableEq, Inhabited, Repr

namespace Operand

/-- An operand as a dump shows it. -/
def shown : Operand → String
  | .imm value => "Imm(value=" ++ toString value ++ ")"
  | .reg index => "Reg(index=" ++ toString index ++ ")"
  | .deref index => "RegDeref(index=" ++ toString index ++ ")"
  | .slot index => "Stack(slot=" ++ toString index ++ ")"
  | .label name => "Label(name=" ++ Text.quoted name ++ ")"
  | .other shown => shown

/-- The label that an operand refers to. -/
def label? : Operand → Option String
  | .label name => some name
  | _ => none

end Operand

namespace Instr

/-- An operator as a dump shows it. -/
def shownOp (op : Op) : String := "<Op." ++ op.name ++ ": " ++ toString op.number ++ ">"

/-- An operator that may be missing, as a dump shows it. -/
def shownOp? : Option Op → String
  | some op => shownOp op
  | none => "None"

/-- An instruction as a dump shows it. -/
def shown : Instr → String
  | .binOp lhs op rhs =>
    "BinOp(lhs=" ++ lhs.shown ++ ", op=" ++ shownOp? op ++ ", rhs=" ++ rhs.shown ++ ")"
  | .unOp op operand => "UnOp(op=" ++ shownOp op ++ ", operand=" ++ operand.shown ++ ")"
  | .mov src dst => "Mov(src=" ++ src.shown ++ ", dst=" ++ dst.shown ++ ")"
  | .cmp a b => "Cmp(a=" ++ a.shown ++ ", b=" ++ b.shown ++ ")"
  | .jmp target => "Jmp(target=" ++ target.shown ++ ")"
  | .jez target => "Jez(target=" ++ target.shown ++ ")"
  | .call target => "Call(target=" ++ target.shown ++ ")"
  | .ret => "Ret()"
  | .other shown => shown

/-- The operands of an instruction, in order. -/
def operands : Instr → List Operand
  | .binOp lhs _ rhs => [lhs, rhs]
  | .unOp _ operand => [operand]
  | .mov src dst => [src, dst]
  | .cmp a b => [a, b]
  | .jmp target | .jez target | .call target => [target]
  | .ret | .other _ => []

/-- The labels that an instruction refers to, in order. -/
def labels (i : Instr) : List String := i.operands.filterMap Operand.label?

end Instr

end TinyCompiler
