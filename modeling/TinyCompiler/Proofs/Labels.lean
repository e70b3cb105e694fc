import Mathlib.Data.List.Nodup
import TinyCompiler.Proofs.Lowering

/-!
# Labels that are made up

New labels are numbered, and numbers whose labels are bound or reserved are passed over. Since
different numbers have different labels, not all of the numbers that are tried can be passed over,
so a new label is always free. While a program is lowered, the labels that are bound are those of
the functions so far and those made up so far (`Builder.Labelled`), and the latter are known from
the reserved names and their number alone (`mintedLabels`).
-/

namespace TinyCompiler

namespace Builder

variable {b b₁ b₂ b₃ : Builder} {name label : String} {taken : String → Bool} {room n m : Nat}

/-! ### Free numbers -/

/-- Different numbers have different labels. -/
lemma eq_of_numberedLabel_eq (h : numberedLabel m = numberedLabel n) : m = n := by
  have hdigits : (toString m).toList = (toString n).toList := by
    have := congrArg String.toList h
    simpa [numberedLabel] using this
  have hvalue := congrArg (fun ds => Nat.ofDigitChars 10 ds 0) hdigits
  simpa [Nat.toString_eq_ofList_toDigits] using hvalue

/-- A list has no more numbered labels in it than its length allows. -/
lemma length_le_of_numberedLabel_mem {ns : List Nat} {names : List String} (hns : ns.Nodup)
    (h : ∀ n ∈ ns, numberedLabel n ∈ names) : ns.length ≤ names.length := by
  have hnodup : (ns.map numberedLabel).Nodup := hns.map fun _ _ heq => eq_of_numberedLabel_eq heq
  have hsubset : ns.map numberedLabel ⊆ names := by
    intro name hname
    obtain ⟨n, hn, rfl⟩ := List.mem_map.mp hname
    exact h n hn
  have := hnodup.length_le_of_subset hsubset
  rwa [List.length_map] at this

/-- The labels of a row of numbers are all in a list only if it is as long. -/
lemma sub_le_of_numberedLabel_mem {names : List String}
    (h : ∀ k, m ≤ k → k < n → numberedLabel k ∈ names) : n - m ≤ names.length := by
  have hall : ∀ k ∈ List.range' m (n - m), numberedLabel k ∈ names := by
    intro k hk
    obtain ⟨hle, hlt⟩ := List.mem_range'_1.mp hk
    exact h k hle (by omega)
  have hlength := length_le_of_numberedLabel_mem List.nodup_range' hall
  rwa [List.length_range'] at hlength

lemma le_freeNumber (taken : String → Bool) (room n : Nat) : n ≤ freeNumber taken room n := by
  induction room generalizing n with
  | zero => exact Nat.le_refl n
  | succ room ih =>
    rw [freeNumber]
    split
    · have := ih (n + 1)
      omega
    · exact Nat.le_refl n

/-- Numbers are passed over only if their labels are taken. -/
lemma taken_of_lt_freeNumber (hn : n ≤ m) (hm : m < freeNumber taken room n) :
    taken (numberedLabel m) = true := by
  induction room generalizing n with
  | zero =>
    rw [freeNumber] at hm
    omega
  | succ room ih =>
    rw [freeNumber] at hm
    split at hm
    next htaken =>
      rcases Nat.eq_or_lt_of_le hn with rfl | hlt
      · exact htaken
      · exact ih hlt hm
    next => omega

/-- The search ends at a free number, or when it has run out of room. -/
lemma freeNumber_cases (taken : String → Bool) (room n : Nat) :
    taken (numberedLabel (freeNumber taken room n)) = false ∨
      freeNumber taken room n = n + room := by
  induction room generalizing n with
  | zero => exact .inr rfl
  | succ room ih =>
    rw [freeNumber]
    split
    next =>
      rcases ih (n + 1) with hfree | hend
      · exact .inl hfree
      · right
        omega
    next htaken => exact .inl (Bool.not_eq_true _ ▸ htaken)

/-- There is room enough: more numbers are tried than labels can be taken. -/
lemma freeNumber_free {names : List String} (htaken : ∀ name, taken name = true → name ∈ names)
    (hroom : names.length ≤ room) : taken (numberedLabel (freeNumber taken room n)) = false := by
  rcases freeNumber_cases taken room n with hfree | hend
  · exact hfree
  · -- otherwise the labels of `room + 1` numbers are among at most `room` names
    by_contra hne
    have hlast : taken (numberedLabel (n + room)) = true := by
      rw [← hend]
      simpa using hne
    have hall : ∀ m, n ≤ m → m < n + room + 1 → numberedLabel m ∈ names := by
      intro m hn hlt
      apply htaken
      rcases Nat.lt_or_ge m (n + room) with hm | hm
      · exact taken_of_lt_freeNumber hn (hend ▸ hm)
      · rwa [show m = n + room by omega]
    have := sub_le_of_numberedLabel_mem hall
    omega

/-! ### New labels -/

lemma isTaken_iff : b.isTaken name = true ↔ name ∈ b.labels.names ∨ name ∈ b.reserved := by
  simp [isTaken, Table.has_iff]

/-- A new label has the least number, among those not tried before, whose label is neither bound nor
reserved. -/
lemma newLabel_spec (b : Builder) :
    ∃ n, b.newLabel = (numberedLabel n, { b with nextNumber := n + 1 }) ∧ b.nextNumber ≤ n ∧
      b.isTaken (numberedLabel n) = false ∧
      ∀ m, b.nextNumber ≤ m → m < n → b.isTaken (numberedLabel m) = true := by
  refine ⟨_, rfl, le_freeNumber _ _ _, ?_, fun m hle hlt => taken_of_lt_freeNumber hle hlt⟩
  have htaken : ∀ name, b.isTaken name = true → name ∈ b.labels.names ++ b.reserved := by
    intro name hname
    exact List.mem_append.mpr (isTaken_iff.mp hname)
  refine freeNumber_free htaken ?_
  simp [Table.names]

end Builder

/-! ### The labels that are made up for a program -/

/-- The labels that are made up if all numbers below a bound are tried. -/
def mintedBelow (reserved : List String) (bound : Nat) : List String :=
  ((List.range bound).map Builder.numberedLabel).filter (!reserved.contains ·)

/-- The first labels that are made up if some names are reserved. -/
def mintedLabels (reserved : List String) (count : Nat) : List String :=
  (mintedBelow reserved (count + reserved.length)).take count

section Minted

variable {reserved : List String} {name : String} {n bound : Nat}

lemma mem_mintedBelow : name ∈ mintedBelow reserved bound ↔
    (∃ n < bound, Builder.numberedLabel n = name) ∧ name ∉ reserved := by
  simp [mintedBelow]

/-- Numbers whose labels are reserved add nothing. -/
lemma mintedBelow_succ_of_mem (h : Builder.numberedLabel n ∈ reserved) :
    mintedBelow reserved (n + 1) = mintedBelow reserved n := by
  simp [mintedBelow, List.range_succ, h]

lemma mintedBelow_succ_of_not_mem (h : Builder.numberedLabel n ∉ reserved) :
    mintedBelow reserved (n + 1) = mintedBelow reserved n ++ [Builder.numberedLabel n] := by
  simp [mintedBelow, List.range_succ, h]

lemma mintedBelow_eq_of_le (hle : bound ≤ n)
    (h : ∀ m, bound ≤ m → m < n → Builder.numberedLabel m ∈ reserved) :
    mintedBelow reserved n = mintedBelow reserved bound := by
  induction n with
  | zero =>
    obtain rfl : bound = 0 := by omega
    rfl
  | succ n ih =>
    rcases Nat.eq_or_lt_of_le hle with rfl | hlt
    · rfl
    · rw [mintedBelow_succ_of_mem (h n (by omega) (by omega))]
      exact ih (by omega) fun m hm hmn => h m hm (by omega)

/-- How many labels have been made up says which ones. -/
lemma mintedBelow_eq_mintedLabels :
    mintedBelow reserved bound = mintedLabels reserved (mintedBelow reserved bound).length := by
  -- at most one number is passed over for each reserved name
  have hpassed : ((List.range bound).filter
      fun n => reserved.contains (Builder.numberedLabel n)).length ≤ reserved.length := by
    refine Builder.length_le_of_numberedLabel_mem (List.nodup_range.filter _) fun n hn => ?_
    simpa using (List.mem_filter.mp hn).2
  have hminted : (mintedBelow reserved bound).length =
      ((List.range bound).filter fun n => !reserved.contains (Builder.numberedLabel n)).length := by
    rw [mintedBelow, List.filter_map, List.length_map]
    rfl
  have htotal := List.length_eq_length_filter_add (l := List.range bound)
    fun n => reserved.contains (Builder.numberedLabel n)
  rw [List.length_range] at htotal
  have hprefix : mintedBelow reserved bound <+:
      mintedBelow reserved ((mintedBelow reserved bound).length + reserved.length) := by
    refine List.IsPrefix.filter _ (List.IsPrefix.map _ ?_)
    rw [List.prefix_iff_eq_take, List.length_range, List.take_range, Nat.min_eq_left]
    omega
  exact List.prefix_iff_eq_take.mp hprefix

end Minted

/-! ### What is bound while a program is lowered -/

namespace Builder

variable {b b₁ b₂ b₃ : Builder} {name label : String} {declared : List String} {count : Nat}

/-- Nothing has happened to labels between two builders. -/
structure KeepsLabels (b b' : Builder) : Prop where
  labels : b'.labels = b.labels
  reserved : b'.reserved = b.reserved
  nextNumber : b'.nextNumber = b.nextNumber

namespace KeepsLabels

lemma refl (b : Builder) : KeepsLabels b b := ⟨rfl, rfl, rfl⟩

lemma trans (h : KeepsLabels b₁ b₂) (h' : KeepsLabels b₂ b₃) : KeepsLabels b₁ b₃ :=
  ⟨h'.labels.trans h.labels, h'.reserved.trans h.reserved, h'.nextNumber.trans h.nextNumber⟩

lemma append (b : Builder) (i : Instr) : KeepsLabels b (b.append i) := ⟨rfl, rfl, rfl⟩

lemma slotFor (b : Builder) (x : String) : KeepsLabels b (b.slotFor x).2 :=
  ⟨labels_slotFor b x, reserved_slotFor b x, nextNumber_slotFor b x⟩

end KeepsLabels

/-- Bound are the names of the functions so far, which are reserved, and the labels that have been
made up so far. -/
structure Labelled (reserved declared : List String) (count : Nat) (b : Builder) : Prop where
  reserved_eq : b.reserved = reserved
  declared_subset : declared ⊆ reserved
  mem_names_iff : ∀ name, name ∈ b.labels.names ↔
    name ∈ declared ∨ name ∈ mintedBelow reserved b.nextNumber
  length_eq : (mintedBelow reserved b.nextNumber).length = count

namespace Labelled

variable {reserved : List String}

lemma empty (reserved : List String) : (Builder.empty reserved).Labelled reserved [] 0 := by
  refine ⟨rfl, List.nil_subset _, fun name => ?_, rfl⟩
  show name ∈ Table.names [] ↔ name ∈ [] ∨ name ∈ mintedBelow reserved 0
  simp [Table.names, mintedBelow]

lemma of_keepsLabels (h : b₁.Labelled reserved declared count) (hkeep : KeepsLabels b₁ b₂) :
    b₂.Labelled reserved declared count := by
  refine ⟨hkeep.reserved.trans h.reserved_eq, h.declared_subset, fun name => ?_, ?_⟩
  · rw [hkeep.labels, hkeep.nextNumber]
    exact h.mem_names_iff name
  · rw [hkeep.nextNumber]
    exact h.length_eq

/-- A reserved name is bound if it is the name of a function so far. -/
lemma get?_eq_none_iff (h : b.Labelled reserved declared count) (hname : name ∈ reserved) :
    b.labels.get? name = none ↔ name ∉ declared := by
  rw [Table.get?_eq_none_iff, h.mem_names_iff, mem_mintedBelow]
  constructor
  · intro hno hmem
    exact hno (.inl hmem)
  · rintro hno (hmem | ⟨-, hfree⟩)
    · exact hno hmem
    · exact hfree hname

/-- The name of one more function is bound. -/
lemma declare (h : b.Labelled reserved declared count) (hname : name ∈ reserved) :
    (b.mark name).Labelled reserved (declared ++ [name]) count := by
  refine ⟨h.reserved_eq, ?_, fun other => ?_, h.length_eq⟩
  · refine List.append_subset.mpr ⟨h.declared_subset, ?_⟩
    intro other hother
    rwa [List.mem_singleton.mp hother]
  · show other ∈ Table.names (b.labels ++ [(name, (b.position : Int))]) ↔
      other ∈ declared ++ [name] ∨ other ∈ mintedBelow reserved b.nextNumber
    have := h.mem_names_iff other
    simp only [Table.names, List.map_append, List.mem_append] at this ⊢
    rw [this]
    simp only [List.map_cons, List.map_nil]
    tauto

/-- For numbers that have not been tried, taken labels are reserved ones. -/
lemma isTaken_iff_of_le (h : b.Labelled reserved declared count) {n : Nat}
    (hn : b.nextNumber ≤ n) : b.isTaken (numberedLabel n) = true ↔ numberedLabel n ∈ reserved := by
  rw [isTaken_iff, h.mem_names_iff, mem_mintedBelow, h.reserved_eq]
  constructor
  · rintro ((hmem | ⟨⟨m, hm, heq⟩, -⟩) | hmem)
    · exact h.declared_subset hmem
    · have := eq_of_numberedLabel_eq heq
      omega
    · exact hmem
  · exact .inr

/-- A label that was made up is free when it is bound, and one more label has been made up then. -/
lemma mint (h : b₁.Labelled reserved declared count) (hlabel : b₁.newLabel = (label, b₂))
    (hkeep : KeepsLabels b₂ b₃) :
    b₃.labels.get? label = none ∧ (b₃.mark label).Labelled reserved declared (count + 1) := by
  obtain ⟨n, hnew, hle, hfree, hpassed⟩ := newLabel_spec b₁
  obtain ⟨rfl, rfl⟩ := Prod.mk.inj (hlabel.symm.trans hnew)
  -- the numbers that were passed over are those of reserved names, so the new label comes next
  have hreserved : numberedLabel n ∉ reserved := by
    rw [← h.isTaken_iff_of_le hle, hfree]
    simp
  have hbelow : mintedBelow reserved (n + 1) =
      mintedBelow reserved b₁.nextNumber ++ [numberedLabel n] := by
    rw [mintedBelow_succ_of_not_mem hreserved, mintedBelow_eq_of_le hle]
    intro m hm hmn
    exact (h.isTaken_iff_of_le hm).mp (hpassed m hm hmn)
  have hlabels : b₃.labels = b₁.labels := hkeep.labels
  have hnext : b₃.nextNumber = n + 1 := hkeep.nextNumber
  constructor
  · rw [hlabels, Table.get?_eq_none_iff]
    intro hbound
    have := isTaken_iff.mpr (.inl hbound)
    rw [hfree] at this
    cases this
  refine ⟨hkeep.reserved.trans h.reserved_eq, h.declared_subset, fun name => ?_, ?_⟩
  · show name ∈ Table.names (b₃.labels ++ [(numberedLabel n, (b₃.position : Int))]) ↔
      name ∈ declared ∨ name ∈ mintedBelow reserved b₃.nextNumber
    have := h.mem_names_iff name
    rw [hnext, hlabels, hbelow]
    simp only [Table.names, List.map_append, List.mem_append] at this ⊢
    rw [this]
    simp only [List.map_cons, List.map_nil]
    tauto
  · show (mintedBelow reserved b₃.nextNumber).length = count + 1
    rw [hnext, hbelow, List.length_append, h.length_eq]
    rfl

/-- The label of a conditional, from the test to the place after the first branch. -/
lemma mint_conditional {b' : Builder} {i j : Instr} (h : b.Labelled reserved declared count)
    (hcondition : KeepsLabels b b₁) (hlabel : (b₁.append i).newLabel = (label, b₂))
    (hthen : KeepsLabels (b₂.append j) b') :
    b'.labels.get? label = none ∧ (b'.mark label).Labelled reserved declared (count + 1) := by
  have htest := h.of_keepsLabels (hcondition.trans (.append b₁ i))
  exact htest.mint hlabel ((KeepsLabels.append b₂ j).trans hthen)

/-- All labels that are bound, said without the builder's numbers. -/
lemma mem_names_iff_mintedLabels (h : b.Labelled reserved declared count) :
    name ∈ b.labels.names ↔ name ∈ declared ∨ name ∈ mintedLabels reserved count := by
  rw [h.mem_names_iff, mintedBelow_eq_mintedLabels, h.length_eq]

end Labelled

end Builder

/-! ### Code that leaves labels alone -/

/-- A part that leaves a value and makes up no label. -/
def Part.IsValue : Part → Prop
  | .expression _ | .arguments _ _ => True
  | .statement _ | .statements _ => False

lemma Lowers.keepsLabels {part : Part} {b b' : Builder} (h : Lowers part b b')
    (hpart : part.IsValue) : b.KeepsLabels b' := by
  induction h with
  | constant => exact .append _ _
  | symbol => exact (Builder.KeepsLabels.slotFor _ _).trans (.append _ _)
  | binary _ _ ihleft ihright =>
    exact (((ihleft trivial).trans (.append _ _)).trans (ihright trivial)).trans (.append _ _)
  | negation _ ih => exact (ih trivial).trans (.append _ _)
  | call _ ih => exact (ih trivial).trans (.append _ _)
  | noArguments => exact .refl _
  | argument _ _ ihfirst ihrest =>
    exact ((ihfirst trivial).trans (.append _ _)).trans (ihrest trivial)
  | _ => exact absurd hpart id

/-- Every conditional makes up one label. -/
lemma Lowers.labelled_statement {n : Node} {b b' : Builder} {reserved declared : List String}
    {count : Nat} (h : Lowers (.statement n) b b') (hb : b.Labelled reserved declared count) :
    b'.Labelled reserved declared (count + [n].countP (·.kind = .conditional)) := by
  cases h with
  | evaluate hvalue => exact hb.of_keepsLabels (hvalue.keepsLabels trivial)
  | @assign x _ _ _ _ hvalue =>
    have hplaced := (hvalue.keepsLabels trivial).trans (.slotFor _ x)
    exact hb.of_keepsLabels (hplaced.trans (.append _ _))
  | giveBack => exact hb.of_keepsLabels (.append _ _)
  | giveBackValue hvalue =>
    exact hb.of_keepsLabels ((hvalue.keepsLabels trivial).trans (.append _ _))
  | conditional hcondition hlabel hthen hfree =>
    exact (hb.mint_conditional (hcondition.keepsLabels trivial) hlabel
      (hthen.keepsLabels trivial)).2
  | conditionalElse hcondition hlabel hthen hfree helse =>
    have hmark := (hb.mint_conditional (hcondition.keepsLabels trivial) hlabel
      (hthen.keepsLabels trivial)).2
    exact hmark.of_keepsLabels (helse.keepsLabels trivial)

lemma Lowers.labelled_statements {ns : List Node} {b b' : Builder}
    {reserved declared : List String} {count : Nat} (h : Lowers (.statements ns) b b')
    (hb : b.Labelled reserved declared count) :
    b'.Labelled reserved declared (count + ns.countP (·.kind = .conditional)) := by
  induction ns generalizing b count with
  | nil =>
    cases h
    exact hb
  | cons n ns ih =>
    cases h with
    | cons hfirst hrest =>
      have := ih hrest (hfirst.labelled_statement hb)
      rwa [Nat.add_assoc, ← List.countP_append] at this

end TinyCompiler
