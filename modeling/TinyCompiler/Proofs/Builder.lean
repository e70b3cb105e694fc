import Mathlib.Data.List.Infix
import TinyCompiler.Code.Builder

/-!
# What a builder collects

Nothing that a builder has collected is ever changed: its instructions, labels and variables are the
first ones of every code that is made by going on with it. This module states that relation between
a builder and a code, `Builder.Within`, and reads off it what the code holds: the instruction at an
index, the index of a label and the place of a variable. Places are numbered in the order in which
they are given out, so different variables have different places.
-/

namespace TinyCompiler

namespace Table

variable {α : Type}

/-- What is entered later does not change the value of a name. -/
lemma get?_of_prefix {s t : Table α} (h : s <+: t) {name : String} {v : α}
    (hv : s.get? name = some v) : t.get? name = some v := by
  obtain ⟨r, rfl⟩ := h
  rw [get?_append, hv]
  rfl

lemma get?_append_singleton {t : Table α} {name : String} (h : t.get? name = none) (v : α) :
    get? (t ++ [(name, v)]) name = some v := by
  rw [get?_append, h, get?_cons, if_pos rfl]
  rfl

lemma has_iff {t : Table α} {name : String} : t.has name = true ↔ name ∈ t.names := by
  simp [has, names]

/-- A name without a value is entered nowhere. -/
lemma get?_eq_none_iff {t : Table α} {name : String} : t.get? name = none ↔ name ∉ t.names := by
  induction t with
  | nil => simp [names]
  | cons e t ih =>
    obtain ⟨n, v⟩ := e
    rw [get?_cons]
    by_cases h : n = name
    · simp [h, names]
    · rw [if_neg h, ih]
      simp [names, Ne.symm h]

lemma mem_of_get? {t : Table α} {name : String} {v : α} (h : t.get? name = some v) :
    (name, v) ∈ t := by
  induction t with
  | nil => simp at h
  | cons e t ih =>
    obtain ⟨n, w⟩ := e
    rw [get?_cons] at h
    by_cases hn : n = name
    · rw [if_pos hn] at h
      obtain rfl := Option.some.inj h
      simp [hn]
    · rw [if_neg hn] at h
      exact List.mem_cons_of_mem _ (ih h)

end Table

namespace Builder

variable {b b' : Builder} {c : Code}

/-! ### Marking places -/

/-- Binds a label to the index of the next instruction. -/
def mark (b : Builder) (name : String) : Builder :=
  { b with labels := b.labels ++ [(name, (b.position : Int))] }

@[simp] lemma instrs_mark (b : Builder) (name : String) : (b.mark name).instrs = b.instrs := rfl

@[simp] lemma position_mark (b : Builder) (name : String) :
    (b.mark name).position = b.position := rfl

@[simp] lemma slots_mark (b : Builder) (name : String) : (b.mark name).slots = b.slots := rfl

@[simp] lemma labels_mark (b : Builder) (name : String) :
    (b.mark name).labels = b.labels ++ [(name, (b.position : Int))] := rfl

/-- A label that is not bound yet is bound to the next instruction. -/
lemma bindLabel_of_get?_eq_none {name : String} (h : b.labels.get? name = none) :
    b.bindLabel name none = .ok ((b.position : Int), b.mark name) := by
  simp [bindLabel, h, mark]

lemma bindLabel_of_get?_eq_some {name : String} {first : Int}
    (h : b.labels.get? name = some first) :
    b.bindLabel name none = .error (.duplicateLabel name first) := by
  simp [bindLabel, h]

/-- Binding succeeds exactly for labels that are not bound yet. -/
lemma bindLabel_eq_ok_iff {name : String} {r : Int × Builder} :
    b.bindLabel name none = .ok r ↔
      b.labels.get? name = none ∧ r = ((b.position : Int), b.mark name) := by
  cases h : b.labels.get? name with
  | none =>
    rw [bindLabel_of_get?_eq_none h]
    simp [eq_comm]
  | some first =>
    rw [bindLabel_of_get?_eq_some h]
    simp

/-! ### Giving out places -/

@[simp] lemma instrs_slotFor (b : Builder) (x : String) : (b.slotFor x).2.instrs = b.instrs := by
  rw [slotFor]
  split <;> rfl

@[simp] lemma position_slotFor (b : Builder) (x : String) :
    (b.slotFor x).2.position = b.position := by
  rw [position, instrs_slotFor, position]

@[simp] lemma labels_slotFor (b : Builder) (x : String) : (b.slotFor x).2.labels = b.labels := by
  rw [slotFor]
  split <;> rfl

@[simp] lemma reserved_slotFor (b : Builder) (x : String) :
    (b.slotFor x).2.reserved = b.reserved := by
  rw [slotFor]
  split <;> rfl

@[simp] lemma nextNumber_slotFor (b : Builder) (x : String) :
    (b.slotFor x).2.nextNumber = b.nextNumber := by
  rw [slotFor]
  split <;> rfl

/-- A variable that was asked for has the place that was given. -/
lemma get?_slotFor (b : Builder) (x : String) :
    (b.slotFor x).2.slots.get? x = some (b.slotFor x).1 := by
  rw [slotFor]
  split
  · next slot h => exact h
  · next h => exact Table.get?_append_singleton h _

lemma prefix_slots_slotFor (b : Builder) (x : String) : b.slots <+: (b.slotFor x).2.slots := by
  rw [slotFor]
  split
  · exact List.prefix_rfl
  · exact List.prefix_append _ _

/-! ### Making up labels -/

lemma position_of_newLabel {label : String} (h : b.newLabel = (label, b')) :
    b'.position = b.position := by
  obtain ⟨-, rfl⟩ := Prod.mk.inj h
  rfl

lemma slots_of_newLabel {label : String} (h : b.newLabel = (label, b')) : b'.slots = b.slots := by
  obtain ⟨-, rfl⟩ := Prod.mk.inj h
  rfl

/-! ### Builders within codes -/

lemma length_instrs_code (b : Builder) : b.code.instrs.length = b.position := Array.length_toList

/-- What a builder has collected is the first part of a code. -/
structure Within (b : Builder) (c : Code) : Prop where
  instrs : b.instrs.toList <+: c.instrs
  labels : b.labels <+: c.labels
  slots : b.slots <+: c.slots

namespace Within

lemma refl (b : Builder) : b.Within b.code :=
  ⟨List.prefix_rfl, List.prefix_rfl, List.prefix_rfl⟩

lemma trans (h : b.Within b'.code) (h' : b'.Within c) : b.Within c :=
  ⟨h.instrs.trans h'.instrs, h.labels.trans h'.labels, h.slots.trans h'.slots⟩

lemma append (b : Builder) (i : Instr) : b.Within (b.append i).code := by
  refine ⟨?_, List.prefix_rfl, List.prefix_rfl⟩
  show b.instrs.toList <+: (b.append i).instrs.toList
  rw [toList_append]
  exact List.prefix_append _ _

lemma mark (b : Builder) (name : String) : b.Within (b.mark name).code :=
  ⟨List.prefix_rfl, List.prefix_append _ _, List.prefix_rfl⟩

lemma slotFor (b : Builder) (x : String) : b.Within (b.slotFor x).2.code := by
  refine ⟨?_, ?_, prefix_slots_slotFor b x⟩
  · show b.instrs.toList <+: (b.slotFor x).2.instrs.toList
    rw [instrs_slotFor]
  · show b.labels <+: (b.slotFor x).2.labels
    rw [labels_slotFor]

lemma newLabel {label : String} (h : b.newLabel = (label, b')) : b.Within b'.code := by
  obtain ⟨-, rfl⟩ := Prod.mk.inj h
  exact ⟨List.prefix_rfl, List.prefix_rfl, List.prefix_rfl⟩

/-- The instruction that was added last stands where it was added. -/
lemma getElem?_append {i : Instr} (h : (b.append i).Within c) : c.instrs[b.position]? = some i := by
  obtain ⟨rest, hrest⟩ := h.instrs
  rw [← hrest, toList_append, List.append_assoc]
  have hpos : b.position = b.instrs.toList.length := Array.length_toList.symm
  rw [hpos]
  simp

/-- A label that was marked is bound to the index that was next. -/
lemma get?_mark {name : String} (h : (b.mark name).Within c) (hfree : b.labels.get? name = none) :
    c.labels.get? name = some (b.position : Int) :=
  Table.get?_of_prefix h.labels (Table.get?_append_singleton hfree _)

/-- A variable that was asked for keeps its place. -/
lemma get?_slotFor {x : String} (h : (b.slotFor x).2.Within c) :
    c.slots.get? x = some (b.slotFor x).1 :=
  Table.get?_of_prefix h.slots (Builder.get?_slotFor b x)

end Within

end Builder

/-! ### Places are numbered -/

/-- Places are the numbers from zero on, in the order in which they were given out. -/
def Table.Numbered (t : Table Nat) : Prop := t.map (·.2) = List.range t.length

namespace Table.Numbered

variable {t : Table Nat}

lemma nil : Numbered [] := rfl

lemma append (h : t.Numbered) (name : String) : Numbered (t ++ [(name, t.length)]) := by
  rw [Numbered] at h ⊢
  rw [List.map_append, h, List.length_append]
  exact List.range_succ.symm

/-- The entry of a name stands at the index that is its place. -/
lemma getElem?_of_mem (h : t.Numbered) {name : String} {i : Nat} (hm : (name, i) ∈ t) :
    t[i]? = some (name, i) := by
  obtain ⟨k, hk, hentry⟩ := List.mem_iff_getElem.mp hm
  have hvalue : (t.map (·.2))[k]? = some i := by
    rw [List.getElem?_map, List.getElem?_eq_getElem hk, hentry]
    rfl
  rw [h, List.getElem?_range hk] at hvalue
  obtain rfl := Option.some.inj hvalue
  rw [List.getElem?_eq_getElem hk, hentry]

/-- Different names have different places. -/
lemma injective (h : t.Numbered) {x y : String} {i : Nat} (hx : t.get? x = some i)
    (hy : t.get? y = some i) : x = y := by
  have hxi := h.getElem?_of_mem (mem_of_get? hx)
  have hyi := h.getElem?_of_mem (mem_of_get? hy)
  rw [hxi] at hyi
  exact congrArg Prod.fst (Option.some.inj hyi)

end Table.Numbered

lemma Builder.numbered_slotFor {b : Builder} (h : b.slots.Numbered) (x : String) :
    (b.slotFor x).2.slots.Numbered := by
  rw [slotFor]
  split
  · exact h
  · exact h.append x

end TinyCompiler
