import Mathlib.Data.Option.Basic
import TinyCompiler.Proofs.Lowering

/-!
# Variables and their places

All functions of a program share one row of places, and a variable gets the next one where it is
first used, be it read or assigned. Which variables are used in which order can be read off the tree
(`Program.uses`), so the table of places is known before any code is made: it numbers the different
variables in the order of their first uses (`Table.numbering`). Every use becomes one operand, in
the same order, with the place of its variable. Both are kept by every step that adds code
(`Builder.Placed`), and together they say that two accesses go to the same place only if they are to
the same variable (`slots_follow_uses`).
-/

namespace TinyCompiler

/-! ### Numbering names -/

/-- The table that numbers different names in the order in which they first occur. -/
def Table.numbering (names : List String) : Table Nat := names.eraseDups.zipIdx

namespace Table

variable {names : List String} {x y : String}

lemma numbering_concat_of_mem (h : x ∈ names) : numbering (names ++ [x]) = numbering names := by
  have hold : [x].removeAll names = [] := by simp [List.removeAll, h]
  rw [numbering, List.eraseDups_append, hold, List.eraseDups_nil, List.append_nil, numbering]

lemma numbering_concat_of_not_mem (h : x ∉ names) :
    numbering (names ++ [x]) = numbering names ++ [(x, (numbering names).length)] := by
  have hnew : [x].removeAll names = [x] := by simp [List.removeAll, h]
  have hsingle : [x].eraseDups = [x] := by simp [List.eraseDups_cons]
  rw [numbering, List.eraseDups_append, hnew, hsingle, List.zipIdx_append]
  simp [numbering]

/-- The names of the table are those that occur. -/
lemma get?_numbering_eq_none_iff : (numbering names).get? x = none ↔ x ∉ names := by
  rw [get?_eq_none_iff, Table.names, numbering, List.zipIdx_map_fst, List.mem_eraseDups]

lemma exists_get?_numbering (h : x ∈ names) : ∃ place, (numbering names).get? x = some place := by
  rw [← Option.isSome_iff_exists, Option.isSome_iff_ne_none]
  exact fun hnone => get?_numbering_eq_none_iff.mp hnone h

/-- What occurs later does not change the number of a name. -/
lemma prefix_numbering_append (names later : List String) :
    numbering names <+: numbering (names ++ later) := by
  rw [numbering, numbering, List.eraseDups_append, List.zipIdx_append]
  exact List.prefix_append _ _

lemma get?_numbering_append (h : x ∈ names) (later : List String) :
    (numbering (names ++ later)).get? x = (numbering names).get? x := by
  obtain ⟨place, hplace⟩ := exists_get?_numbering h
  rw [hplace, get?_of_prefix (prefix_numbering_append names later) hplace]

lemma numbered_numbering (names : List String) : (numbering names).Numbered := by
  rw [Numbered, numbering, List.zipIdx_map_snd, List.length_zipIdx, List.range_eq_range']

/-- Different names have different numbers. -/
lemma eq_of_get?_numbering_eq (hx : x ∈ names)
    (h : (numbering names).get? x = (numbering names).get? y) : x = y := by
  obtain ⟨place, hplace⟩ := exists_get?_numbering hx
  exact (numbered_numbering names).injective hplace (h ▸ hplace)

end Table

/-- A variable that is asked for is numbered after those that were asked for before. -/
lemma Builder.slots_slotFor {b : Builder} {names : List String}
    (h : b.slots = Table.numbering names) (x : String) :
    (b.slotFor x).2.slots = Table.numbering (names ++ [x]) := by
  rw [slotFor]
  split
  · next place hplace =>
    have hx : x ∈ names := by
      by_contra hnew
      rw [h, Table.get?_numbering_eq_none_iff.mpr hnew] at hplace
      cases hplace
    rw [Table.numbering_concat_of_mem hx]
    exact h
  · next hnone =>
    rw [h] at hnone
    rw [Table.numbering_concat_of_not_mem (Table.get?_numbering_eq_none_iff.mp hnone), ← h]

/-! ### Uses of variables -/

namespace Node

mutual

/-- The variables that a tree uses, in the order of evaluation. What is assigned to a variable is
evaluated before. -/
def uses : Node → List String
  | .symbol x _ => [x]
  | .assign x e _ => e.uses ++ [x]
  | .binary _ left right _ => left.uses ++ right.uses
  | .evaluate e _ | .giveBack e _ | .unary _ e _ => e.uses
  | .conditional c t e _ => c.uses ++ t.uses ++ e.uses
  | .call _ ns _ | .program ns _ | .function _ ns _ => usesAll ns
  | .missing | .bareStatement _ | .bareExpression _ | .constant _ _ | .rowless _ _ => []
termination_by structural n => n

/-- The variables that a row of trees uses. -/
def usesAll : List Node → List String
  | [] => []
  | n :: ns => n.uses ++ usesAll ns
termination_by structural ns => ns

end

end Node

/-- The variables that a function uses, in the order of evaluation. -/
def Function.uses (f : Function) : List String := f.body.flatMap Node.uses

/-- The variables that a program uses, one function after the other. -/
def Program.uses (p : Program) : List String := p.functions.flatMap Function.uses

/-- The variables that a part uses. -/
def Part.uses : Part → List String
  | .expression e => e.uses
  | .arguments _ es => Node.usesAll es
  | .statement n => n.uses
  | .statements ns => ns.flatMap Node.uses

/-! ### Accesses to places -/

/-- The place of a variable that an operand is. -/
def Operand.slot? : Operand → Option Int
  | .slot index => some index
  | _ => none

/-- The places that an instruction accesses, in the order of its operands. -/
def Instr.accesses (i : Instr) : List Int := i.operands.filterMap Operand.slot?

/-- The places that instructions access, in order. -/
def Code.accesses (c : Code) : List Int := c.instrs.flatMap Instr.accesses

/-- So far, these variables were used: they are numbered in the order of their first uses, and every
use became an access to the place of its variable. -/
structure Builder.Placed (names : List String) (b : Builder) : Prop where
  slots : b.slots = Table.numbering names
  accesses : b.code.accesses.map some =
    names.map fun x => ((Table.numbering names).get? x).map Int.ofNat

namespace Builder.Placed

variable {names : List String} {b b' : Builder} {i : Instr} {x : String}

lemma empty (reserved : List String) : (Builder.empty reserved).Placed [] := ⟨rfl, rfl⟩

lemma of_eq (h : b.Placed names) (hinstrs : b'.instrs = b.instrs) (hslots : b'.slots = b.slots) :
    b'.Placed names := by
  refine ⟨hslots.trans h.slots, ?_⟩
  have hcode : b'.code.accesses = b.code.accesses := by
    rw [Code.accesses, code, hinstrs]
    rfl
  rw [hcode]
  exact h.accesses

lemma accesses_append (b : Builder) (i : Instr) :
    (b.append i).code.accesses = b.code.accesses ++ i.accesses := by
  show (b.append i).instrs.toList.flatMap Instr.accesses = _
  rw [toList_append, List.flatMap_append, List.flatMap_singleton]
  rfl

/-- An instruction without variables. -/
lemma append (h : b.Placed names) (hi : i.accesses = []) : (b.append i).Placed names := by
  refine ⟨h.slots, ?_⟩
  rw [accesses_append, hi, List.append_nil]
  exact h.accesses

/-- An instruction that uses one variable. -/
lemma use (h : b.Placed names) (hi : i.accesses = [((b.slotFor x).1 : Int)]) :
    ((b.slotFor x).2.append i).Placed (names ++ [x]) := by
  have hslots := slots_slotFor h.slots x
  have hplace := get?_slotFor b x
  rw [hslots] at hplace
  -- the uses so far keep their places
  have hkept : names.map (fun y => ((Table.numbering names).get? y).map Int.ofNat) =
      names.map fun y => ((Table.numbering (names ++ [x])).get? y).map Int.ofNat := by
    refine List.map_congr_left fun y hy => ?_
    rw [Table.get?_numbering_append hy]
  refine ⟨hslots, ?_⟩
  have hbefore : (b.slotFor x).2.code.accesses = b.code.accesses := by
    rw [Code.accesses, code, instrs_slotFor]
    rfl
  rw [accesses_append, hi, hbefore, List.map_append, h.accesses, hkept, List.map_append]
  simp [hplace]

end Builder.Placed

/-- Adding the code of a part places the variables that the part uses. -/
lemma Lowers.placed {part : Part} {b b' : Builder} {names : List String} (h : Lowers part b b')
    (hb : b.Placed names) : b'.Placed (names ++ part.uses) := by
  -- the test of a conditional and the jump after it
  have htest : ∀ {b₁ b₂ : Builder} {label : String} {names : List String}, b₁.Placed names →
      (b₁.append (.cmp (.imm 0) accumulator)).newLabel = (label, b₂) →
      (b₂.append (.jez (.label label))).Placed names := by
    intro b₁ b₂ label names hb₁ hlabel
    have hcmp : (b₁.append (.cmp (.imm 0) accumulator)).Placed names := hb₁.append rfl
    obtain ⟨-, rfl⟩ := Prod.mk.inj hlabel
    exact Builder.Placed.append (hcmp.of_eq rfl rfl) rfl
  induction h generalizing names with
  | constant | giveBack => simpa [Part.uses, Node.uses] using hb.append rfl
  | symbol => exact hb.use rfl
  | binary _ _ ihleft ihright =>
    have hleft := (ihleft hb).append (i := .mov accumulator scratch) rfl
    simpa [Part.uses, Node.uses] using (ihright hleft).append rfl
  | negation _ ih | call _ ih | giveBackValue _ ih => exact (ih hb).append rfl
  | noArguments | noStatements => simpa [Part.uses, Node.usesAll] using hb
  | @argument position _ _ _ _ _ _ _ ihfirst ihrest =>
    have hfirst := (ihfirst hb).append (i := .mov accumulator (argumentRegister position)) rfl
    simpa [Part.uses, Node.usesAll] using ihrest hfirst
  | evaluate _ ih => exact ih hb
  | assign _ ih => simpa [Part.uses, Node.uses] using (ih hb).use rfl
  | conditional _ hlabel _ _ ihcondition ihthen =>
    have hthen := ihthen (htest (ihcondition hb) hlabel)
    simpa [Part.uses, Node.uses] using hthen.of_eq (Builder.instrs_mark _ _) rfl
  | conditionalElse _ hlabel _ _ _ ihcondition ihthen ihelse =>
    have hthen := ihthen (htest (ihcondition hb) hlabel)
    have helse := ihelse (hthen.of_eq (Builder.instrs_mark _ _) rfl)
    simpa [Part.uses, Node.uses] using helse
  | cons _ _ ihfirst ihrest => simpa [Part.uses] using ihrest (ihfirst hb)

lemma placed_of_foldlM_lower {fs : List Function} {b b' : Builder} {names : List String}
    (h : fs.foldlM Function.lower b = .ok b') (hb : b.Placed names) :
    b'.Placed (names ++ fs.flatMap Function.uses) := by
  induction fs generalizing b names with
  | nil =>
    obtain rfl := Except.ok.inj h
    simpa using hb
  | cons f fs ih =>
    rw [List.foldlM_cons, bind_eq_ok_iff] at h
    obtain ⟨b₁, h₁, h₂⟩ := h
    obtain ⟨-, hbody⟩ := Function.lowers_of_lower h₁
    have hfirst := hbody.placed (hb.of_eq (Builder.instrs_mark b f.name) rfl)
    simpa [Function.uses, Part.uses] using ih h₂ hfirst

/-- Accesses that are the uses of names go to the same place if the names are the same. -/
lemma Table.getElem?_eq_iff_of_map_numbering {names : List String} {accesses : List Int}
    (h : accesses.map some = names.map fun x => ((numbering names).get? x).map Int.ofNat)
    (i j : Nat) : accesses[i]? = accesses[j]? ↔ names[i]? = names[j]? := by
  have hget (k : Nat) : accesses[k]?.map some =
      names[k]?.map fun x => ((numbering names).get? x).map Int.ofNat := by
    rw [← List.getElem?_map, h, List.getElem?_map]
  constructor
  · intro heq
    have hplaces := (hget i).symm.trans ((congrArg _ heq).trans (hget j))
    cases hi : names[i]? with
    | none =>
      rw [hi, Option.map_none, eq_comm, Option.map_eq_none_iff] at hplaces
      exact hplaces.symm
    | some x =>
      rw [hi, Option.map_some, eq_comm, Option.map_eq_some_iff] at hplaces
      obtain ⟨y, hj, hplaces⟩ := hplaces
      have hnumbers := Option.map_injective (fun _ _ => Int.ofNat.inj) hplaces
      rw [hj, eq_of_get?_numbering_eq (List.mem_of_getElem? hj) hnumbers]
  · intro heq
    refine Option.map_injective (Option.some_injective _) ?_
    rw [hget i, hget j, heq]

/-- Variables are numbered in the order of their first uses, over all functions, and the places that
the instructions access are those of the variables that the program uses, in the same order. So two
accesses go to the same place exactly if they are uses of the same variable. -/
theorem slots_follow_uses (p : Program) (c : Code) (h : p.lower = .ok c) :
    c.slots = Table.numbering p.uses ∧
    c.accesses.map some = p.uses.map (fun x => (c.slots.get? x).map Int.ofNat) ∧
    ∀ i j : Nat, c.accesses[i]? = c.accesses[j]? ↔ p.uses[i]? = p.uses[j]? := by
  obtain ⟨b, hb, -, rfl⟩ := Program.lower_eq_ok_iff.mp h
  obtain ⟨hslots, haccesses⟩ := placed_of_foldlM_lower hb (.empty _)
  rw [List.nil_append] at hslots haccesses
  have htable : b.code.slots = Table.numbering p.uses := hslots
  rw [htable]
  exact ⟨rfl, haccesses, Table.getElem?_eq_iff_of_map_numbering haccesses⟩

/-- The functions `fun f() { let y = x + f(y); }` and `fun g() { if (z) x else y; }`. -/
def Program.sharing : Program where
  functions := [
    ⟨"f", [.assign "y" (.binary (some .add) (.symbol "x" none)
      (.call "f" [.symbol "y" none] none) none) none], none⟩,
    ⟨"g", [.conditional (.symbol "z" none) (.symbol "x" none) (.symbol "y" none) none], none⟩]

/-- A variable that is read before it is assigned, and two that a second function uses again. -/
theorem slots_follow_uses_sharing :
    ∃ c, Program.sharing.lower = .ok c ∧ Program.sharing.uses = ["x", "y", "y", "z", "x", "y"] ∧
      c.slots = [("x", 0), ("y", 1), ("z", 2)] ∧ c.accesses = [0, 1, 1, 2, 0, 1] ∧
      (c.accesses[2]? = c.accesses[5]? ↔
        Program.sharing.uses[2]? = Program.sharing.uses[5]?) := by
  have hlower : Program.sharing.lower = .ok _ := rfl
  exact ⟨_, hlower, rfl, rfl, rfl, (slots_follow_uses _ _ hlower).2.2 2 5⟩

end TinyCompiler
