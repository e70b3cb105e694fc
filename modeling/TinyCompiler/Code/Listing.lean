import TinyCompiler.Code
import TinyCompiler.Number.Numeral

/-!
# Listings

Code is printed as lines: a label on a line of its own before the instruction it marks, and each
instruction indented, its operands in order. Variables are addressed from the frame register, one
word of the stack to each.
-/

namespace TinyCompiler

/-- How code is printed. -/
structure Layout where
  /-- How many bytes a variable takes on the stack. -/
  slotSize : Int
  /-- The register that variables are addressed from. -/
  frameRegister : String
  /-- What stands before an instruction. -/
  indent : String
  /-- How many digits a number may have, if there is a limit. -/
  maxDigits : Option Nat
  deriving DecidableEq, Repr

/-- The layout that is used unless another one is asked for. The code that it prints was made from a
program, so its numbers are small. -/
def Layout.standard : Layout := ⟨8, "bp", "\t", none⟩

/-- A layout of one's own choice. Since any number can be chosen for the size or stand in code that
was made by hand, the digits of a number are limited, as those of a whole number in a program are. -/
def Layout.chosen (slotSize : Int) (frameRegister indent : String) : Layout :=
  ⟨slotSize, frameRegister, indent, some Numeral.maxWholeDigits⟩

namespace Op

/-- The name of the instruction with two operands. -/
def mnemonic : Op → String
  | .add => "addq"
  | .sub => "subq"
  | .mul => "mulq"
  | .div => "divq"

/-- The name of the instruction with one operand, which only subtraction has. -/
def unaryMnemonic? : Op → Option String
  | .sub => some "negq"
  | _ => none

end Op

namespace Layout

/-- Refuses a layout in which variables take no room or have no register. -/
def validate (l : Layout) : Except OptionsError Unit :=
  if l.slotSize ≤ 0 then .error (.slotSize l.slotSize)
  else if l.frameRegister.isEmpty then .error .noFrameRegister
  else .ok ()

/-- The offset of a variable's place from the frame register, downwards. -/
def offset (l : Layout) (index : Int) : Int := (index + 1) * l.slotSize

/-- A number as text. -/
def numberText (l : Layout) (number : Int) : Except ListingError String :=
  match l.maxDigits with
  | some n => if Nat.pow 10 n ≤ number.natAbs then .error (.longNumber n) else .ok (toString number)
  | none => .ok (toString number)

/-- An operand as text. -/
def operandText (l : Layout) : Operand → Except ListingError String
  | .imm value => do
    let text ← l.numberText value
    return "$" ++ text
  | .reg index => do
    let text ← l.numberText index
    return "%" ++ text
  | .deref index => do
    let text ← l.numberText index
    return "(%" ++ text ++ ")"
  | .slot index => do
    let text ← l.numberText (l.offset index)
    return "-" ++ text ++ "(%" ++ l.frameRegister ++ ")"
  | .label name => .ok name
  | .other shown => .error (.notOperand shown)

/-- An instruction's name and operands as text. -/
def withOperands (l : Layout) (mnemonic : String) (operands : List Operand) :
    Except ListingError String := do
  let texts ← operands.mapM l.operandText
  return mnemonic ++ " " ++ ", ".intercalate texts

/-- An instruction as text. -/
def instrText (l : Layout) : Instr → Except ListingError String
  | .binOp lhs (some op) rhs => l.withOperands op.mnemonic [lhs, rhs]
  | .binOp _ none _ => .error .noOperator
  | .unOp op operand =>
    match op.unaryMnemonic? with
    | some mnemonic => l.withOperands mnemonic [operand]
    | none => .error (.noMnemonic op)
  | .mov src dst => l.withOperands "movq" [src, dst]
  | .cmp a b => l.withOperands "cmp" [a, b]
  | .jmp target => l.withOperands "jmp" [target]
  | .jez target => l.withOperands "jez" [target]
  | .call target => l.withOperands "call" [target]
  | .ret => .ok "ret"
  | .other shown => .error (.notInstruction shown)

/-- The line of a label. -/
def labelLine (label : String × Int) : String := label.1 ++ ":"

/-- The lines of instructions, the first of which has the given index. The labels that are left are
in order, and those of an instruction come before it. -/
def weave (l : Layout) (index : Int) :
    List Instr → Table Int → Except ListingError (List String)
  | [], labels => .ok (labels.map labelLine)
  | i :: is, labels => do
    let text ← l.instrText i
    let rest ← l.weave (index + 1) is (labels.dropWhile (·.2 ≤ index))
    return (labels.takeWhile (·.2 ≤ index)).map labelLine ++ (l.indent ++ text) :: rest

/-- The labels in the order in which they are printed: by index, and those of one index as they were
bound. A label with a negative index marks nothing and is not printed. -/
def printedLabels (labels : Table Int) : Table Int :=
  (labels.filter fun label => 0 ≤ label.2).mergeSort fun a b => a.2 ≤ b.2

/-- The lines of a code, all of whose labels must be bound. -/
def render (l : Layout) (c : Code) : Except Failure (List String) :=
  match c.checkLabels with
  | .error e => .error (.code e)
  | .ok _ => (l.weave 0 c.instrs (printedLabels c.labels)).mapError .listing

end Layout

end TinyCompiler
