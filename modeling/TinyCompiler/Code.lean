import TinyCompiler.Failure
import TinyCompiler.Instr
import TinyCompiler.Table
import TinyCompiler.Text.Similar

/-!
# Code

Instructions in order, the labels with the instructions they mark, and the variables with their
places on the stack. A label may mark the place after the last instruction.
-/

namespace TinyCompiler

/-- A finished row of instructions with its labels and variables. -/
structure Code where
  instrs : List Instr
  labels : Table Int
  slots : Table Nat
  deriving DecidableEq, Repr

namespace Code

/-- The labels that instructions refer to, in order of first use. -/
def referencedLabels (c : Code) : List String := (c.instrs.flatMap Instr.labels).eraseDups

/-- The labels that instructions refer to and that mark nothing, in order of first use. -/
def unresolvedLabels (c : Code) : List String := c.referencedLabels.filter (!c.labels.has ·)

/-- The labels of an instruction, in the order in which they were bound. -/
def labelsAt (c : Code) (index : Int) : List String :=
  (c.labels.filter (·.2 == index)).map (·.1)

/-- Complains about the first label that marks nothing. -/
def checkLabels (c : Code) : Except CodeError Unit :=
  match c.unresolvedLabels with
  | [] => .ok ()
  | label :: _ => .error (.unresolvedLabel label (Text.similarNames label c.labels.names))

/-- Whether two codes are equal; the order of their tables does not matter. -/
def same (c d : Code) : Bool :=
  c.instrs == d.instrs && c.labels.sameMapping d.labels && c.slots.sameMapping d.slots

/-! ### Dumps -/

/-- A number, filled up with spaces to four characters. -/
def dumpNumber (n : Nat) : String := String.ofList ((Nat.toDigits 10 n).leftpad 4 ' ')

/-- The lines of a dump: instructions with their numbers, then labels in order of binding. -/
def dump (c : Code) : List String :=
  c.instrs.zipIdx.map (fun (i, n) => dumpNumber n ++ "  " ++ i.shown) ++
    "labels:" :: c.labels.map fun (name, index) => "  " ++ name ++ " -> " ++ toString index

end Code

end TinyCompiler
