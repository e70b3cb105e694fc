import TinyCompiler.Code

/-!
# Code in the making

A builder collects instructions, binds labels, gives places to variables and makes up new labels.
Nothing that was collected is ever changed or taken away; an operation that fails changes nothing.
-/

namespace TinyCompiler

/-- Code in the making. -/
structure Builder where
  instrs : Array Instr
  labels : Table Int
  slots : Table Nat
  /-- Names that new labels must not take. -/
  reserved : List String
  /-- Numbers below this one were tried for new labels already. -/
  nextNumber : Nat
  deriving DecidableEq, Repr

namespace Builder

/-- A builder that has collected nothing. -/
def empty (reserved : List String) : Builder := ⟨#[], [], [], reserved, 0⟩

/-- The index that the next instruction will get. -/
def position (b : Builder) : Nat := b.instrs.size

/-- Adds an instruction. -/
def append (b : Builder) (i : Instr) : Builder := { b with instrs := b.instrs.push i }

@[simp] theorem toList_append (b : Builder) (i : Instr) :
    (b.append i).instrs.toList = b.instrs.toList ++ [i] := Array.toList_push

@[simp] theorem position_append (b : Builder) (i : Instr) :
    (b.append i).position = b.position + 1 := Array.size_push _

@[simp] theorem labels_append (b : Builder) (i : Instr) : (b.append i).labels = b.labels := rfl

@[simp] theorem slots_append (b : Builder) (i : Instr) : (b.append i).slots = b.slots := rfl

/-! ### New labels -/

/-- The name of the new label of a number. -/
def numberedLabel (n : Nat) : String := "_" ++ toString n

/-- Whether a name is bound or reserved. -/
def isTaken (b : Builder) (name : String) : Bool := b.labels.has name || b.reserved.contains name

/-- The least number from `n` on whose label is not taken, if at most `room` labels are taken. -/
def freeNumber (taken : String → Bool) : (room n : Nat) → Nat
  | 0, n => n
  | room + 1, n => if taken (numberedLabel n) then freeNumber taken room (n + 1) else n

/-- Makes up a label that is neither bound nor reserved and was not made up before. -/
def newLabel (b : Builder) : String × Builder :=
  let n := freeNumber b.isTaken (b.labels.length + b.reserved.length) b.nextNumber
  (numberedLabel n, { b with nextNumber := n + 1 })

/-! ### Binding and placing -/

/-- Binds a label to an instruction, by default to the next one. -/
def bindLabel (b : Builder) (name : String) (index : Option Int) :
    Except CodeError (Int × Builder) :=
  match b.labels.get? name with
  | some first => .error (.duplicateLabel name first)
  | none =>
    let index := index.getD b.position
    .ok (index, { b with labels := b.labels ++ [(name, index)] })

/-- The place of a variable: the next free one if it has none yet. -/
def slotFor (b : Builder) (name : String) : Nat × Builder :=
  match b.slots.get? name with
  | some slot => (slot, b)
  | none =>
    let slot := b.slots.length
    (slot, { b with slots := b.slots ++ [(name, slot)] })

/-- The code as collected so far. -/
def code (b : Builder) : Code := ⟨b.instrs.toList, b.labels, b.slots⟩

/-- The code as collected so far, all of whose labels must be bound. -/
def finish (b : Builder) : Except CodeError Code :=
  match b.code.checkLabels with
  | .ok _ => .ok b.code
  | .error e => .error e

end Builder

end TinyCompiler
