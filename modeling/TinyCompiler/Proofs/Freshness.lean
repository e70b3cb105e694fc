import Mathlib.Order.Bounds.Basic
import TinyCompiler.Proofs.Histories

/-!
# Labels that are made up in a history

Between two new labels, any names can be bound, and some of them may look like labels that were made
up. So which numbers are passed over depends on everything that happened before. The search for a
number is a loop without a bound (`Builder.Search`); it ends since different numbers have different
labels and only so many are taken. A builder remembers where the last search ended and nothing else
about it (`Builder.Counts`), which is enough: numbers only grow, so what was made up is never made
up again (`Builder.mintsFresh_history`).
-/

namespace TinyCompiler

namespace Builder

/-! ### The search for a number -/

/-- One number after the other is tried until one is found whose label is not taken. -/
inductive Search (taken : String → Prop) : (start tries found : Nat) → Prop where
  | found {n : Nat} (hfree : ¬ taken (numberedLabel n)) : Search taken n 1 n
  | next {n tries found : Nat} (htaken : taken (numberedLabel n))
    (hrest : Search taken (n + 1) tries found) : Search taken n (tries + 1) found

/-- The search ends at the first number whose label is not taken. -/
lemma search_of_passed {taken : String → Prop} {start n : Nat} (hle : start ≤ n)
    (hpassed : ∀ m, start ≤ m → m < n → taken (numberedLabel m))
    (hfree : ¬ taken (numberedLabel n)) : Search taken start (n - start + 1) n := by
  obtain ⟨passed, rfl⟩ := Nat.exists_eq_add_of_le hle
  rw [Nat.add_sub_cancel_left]
  induction passed generalizing start with
  | zero => exact .found hfree
  | succ passed ih =>
    have hnext : start + 1 + passed = start + (passed + 1) := by omega
    refine .next (hpassed start (Nat.le_refl _) (by omega)) ?_
    rw [← hnext] at hpassed hfree ⊢
    exact ih (Nat.le_add_right _ _) (fun m hm hlt => hpassed m (by omega) hlt) hfree

/-! ### What a builder remembers of its new labels -/

/-- The label that was made up. -/
def Event.label? : Event → Option String
  | .minted label => some label
  | _ => none

/-- The labels that were made up. -/
def minted (events : List Event) : List String := events.filterMap Event.label?

/-- A number is greater than those of all labels that were made up. -/
def IsAbove (events : List Event) (n : Nat) : Prop := ∀ m, numberedLabel m ∈ minted events → m < n

/-- A name is bound or reserved. -/
def IsTaken (reserved : List String) (events : List Event) (name : String) : Prop :=
  Binds events name ∨ name ∈ reserved

/-- A number can be that of the next new label. -/
def IsFree (reserved : List String) (events : List Event) (n : Nat) : Prop :=
  IsAbove events n ∧ ¬ IsTaken reserved events (numberedLabel n)

/-- New labels have growing numbers, and a builder knows the least number that is above them. -/
structure Counts (reserved : List String) (events : List Event) (b : Builder) : Prop where
  code : b.code = collected events
  reserved_eq : b.reserved = reserved
  increasing : ∃ numbers : List Nat, minted events = numbers.map numberedLabel ∧
    numbers.Pairwise (· < ·)
  le_iff : ∀ n, b.nextNumber ≤ n ↔ IsAbove events n

variable {reserved : List String} {events earlier later : List Event} {b : Builder}
  {calls : List Call} {label : String}

namespace Counts

lemma isTaken_iff (h : Counts reserved events b) (name : String) :
    b.isTaken name = true ↔ IsTaken reserved events name := by
  have hlabels : b.labels = bindings events := congrArg Code.labels h.code
  rw [Builder.isTaken_iff, hlabels, mem_names_bindings, h.reserved_eq, IsTaken]

lemma start (reserved : List String) : Counts reserved [] (empty reserved) := by
  refine ⟨rfl, rfl, ⟨[], rfl, .nil⟩, fun n => ?_⟩
  exact iff_of_true (Nat.zero_le n) fun m hm => absurd hm List.not_mem_nil

/-- Where no label is made up, nothing is counted. -/
lemma concat {e : Event} {b' : Builder} (h : Counts reserved events b) (he : e.label? = none)
    (hcode : b'.code = collected (events ++ [e])) (hreserved : b'.reserved = b.reserved)
    (hnext : b'.nextNumber = b.nextNumber) : Counts reserved (events ++ [e]) b' := by
  have hminted : minted (events ++ [e]) = minted events := by simp [minted, he]
  refine ⟨hcode, hreserved.trans h.reserved_eq, ?_, fun n => ?_⟩
  · rw [hminted]
    exact h.increasing
  · rw [hnext, h.le_iff, IsAbove, IsAbove, hminted]

/-- One more label is made up. -/
lemma mint (h : Counts reserved events b) :
    Counts reserved (events ++ [.minted b.newLabel.1]) b.newLabel.2 := by
  have hcode := code_perform h.code .newLabel
  obtain ⟨n, hnew, hle, -, -⟩ := newLabel_spec b
  have hminted : minted (events ++ [.minted (numberedLabel n)]) =
      minted events ++ [numberedLabel n] := by simp [minted, Event.label?]
  have habove : IsAbove events n := (h.le_iff n).mp hle
  simp only [perform, hnew] at hcode
  rw [hnew]
  refine ⟨hcode, h.reserved_eq, ?_, fun k => ?_⟩
  · obtain ⟨numbers, hnumbers, hincreasing⟩ := h.increasing
    refine ⟨numbers ++ [n], by simp [hminted, hnumbers], ?_⟩
    refine List.pairwise_append.mpr ⟨hincreasing, List.pairwise_singleton _ _, ?_⟩
    intro m hm _ hlast
    rw [List.mem_singleton.mp hlast]
    exact habove m (hnumbers ▸ List.mem_map_of_mem hm)
  · show n + 1 ≤ k ↔ IsAbove (events ++ [.minted (numberedLabel n)]) k
    rw [IsAbove, hminted]
    constructor
    · intro hk m hm
      rcases List.mem_append.mp hm with hm | hm
      · have := habove m hm
        omega
      · have := eq_of_numberedLabel_eq (List.mem_singleton.mp hm)
        omega
    · intro hk
      exact hk n List.mem_append_cons_self

lemma perform (h : Counts reserved events b) (call : Call) :
    Counts reserved (events ++ [(b.perform call).1]) (b.perform call).2 := by
  have hcode := code_perform h.code call
  cases call with
  | newLabel => exact h.mint
  | append i => exact h.concat rfl hcode rfl rfl
  | bindLabel name given =>
    cases hget : b.labels.get? name with
    | none =>
      rw [perform_bindLabel_of_none hget] at hcode ⊢
      exact h.concat rfl hcode rfl rfl
    | some first =>
      rw [perform_bindLabel_of_some hget] at hcode ⊢
      exact h.concat rfl hcode rfl rfl
  | slotFor x => exact h.concat rfl hcode (reserved_slotFor b x) (nextNumber_slotFor b x)
  | finish => exact h.concat rfl hcode rfl rfl

end Counts

lemma counts_after (reserved : List String) (calls : List Call) :
    Counts reserved ((empty reserved).history calls) ((empty reserved).after calls) :=
  holds_after (Counts reserved) (.start reserved) (fun _ _ call h => h.perform call) calls

/-! ### Every new label -/

/-- A new label has the first number above all earlier ones whose label is not taken. -/
lemma minted_of_history
    (h : (empty reserved).history calls = earlier ++ .minted label :: later) :
    ∃ start n, label = numberedLabel n ∧ (∀ m, start ≤ m ↔ IsAbove earlier m) ∧ start ≤ n ∧
      ¬ IsTaken reserved earlier (numberedLabel n) ∧
      ∀ m, start ≤ m → m < n → IsTaken reserved earlier (numberedLabel m) := by
  obtain ⟨hearlier, hevent⟩ := of_history_eq_append h
  have hcounts := counts_after reserved (earlier.map Event.call)
  rw [hearlier] at hcounts
  obtain ⟨n, hnew, hle, hfree, hpassed⟩ :=
    newLabel_spec ((empty reserved).after (earlier.map Event.call))
  refine ⟨_, n, ?_, hcounts.le_iff, hle, ?_, fun m hm hlt => ?_⟩
  · rw [Event.call, Builder.perform, hnew] at hevent
    exact (Event.minted.inj hevent).symm
  · rw [← hcounts.isTaken_iff, hfree]
    exact Bool.false_ne_true
  · exact (hcounts.isTaken_iff _).mp (hpassed m hm hlt)

/-- What holds of all labels that are made up in a row of calls to a builder. -/
structure MintsFresh (reserved : List String) (calls : List Call) (events : List Event) :
    Prop where
  /-- Every call is answered. -/
  calls_eq : events.map Event.call = calls
  /-- The search for a number starts above all earlier ones and ends after few tries. -/
  ends : ∀ earlier label later, events = earlier ++ .minted label :: later →
    ∃ start tries n, IsLeast {m | IsAbove earlier m} start ∧
      Search (IsTaken reserved earlier) start tries n ∧ label = numberedLabel n ∧
      tries ≤ (bindings earlier).length + reserved.length + 1
  /-- The number found is the least one that is free. -/
  least : ∀ earlier label later, events = earlier ++ .minted label :: later →
    ∃ n, label = numberedLabel n ∧ IsLeast {m | IsFree reserved earlier m} n
  /-- A new label is neither reserved nor bound. -/
  not_taken : ∀ earlier label later, events = earlier ++ .minted label :: later →
    label ∉ reserved ∧ ¬ Binds earlier label
  /-- The numbers grow. -/
  increasing : ∃ numbers : List Nat, minted events = numbers.map numberedLabel ∧
    numbers.Pairwise (· < ·)
  /-- No label is made up twice. -/
  nodup : (minted events).Nodup

/-- New labels are always fresh, and there is always one. -/
theorem mintsFresh_history (reserved : List String) (calls : List Call) :
    MintsFresh reserved calls ((empty reserved).history calls) where
  calls_eq := map_call_history _ calls
  ends earlier label later h := by
    obtain ⟨start, n, hlabel, habove, hle, hfree, hpassed⟩ := minted_of_history h
    have hleast : IsLeast {m | IsAbove earlier m} start :=
      ⟨(habove start).mp (Nat.le_refl start), fun m hm => (habove m).mpr hm⟩
    have htaken : ∀ m, start ≤ m → m < n →
        numberedLabel m ∈ (bindings earlier).names ++ reserved := by
      intro m hm hlt
      rw [List.mem_append, mem_names_bindings]
      exact hpassed m hm hlt
    have hfew := sub_le_of_numberedLabel_mem htaken
    rw [List.length_append, Table.names, List.length_map] at hfew
    exact ⟨start, n - start + 1, n, hleast, search_of_passed hle hpassed hfree, hlabel, by omega⟩
  least earlier label later h := by
    obtain ⟨start, n, hlabel, habove, hle, hfree, hpassed⟩ := minted_of_history h
    refine ⟨n, hlabel, ⟨(habove n).mp hle, hfree⟩, ?_⟩
    rintro m ⟨hm, hmfree⟩
    by_contra hlt
    exact hmfree (hpassed m ((habove m).mpr hm) (Nat.lt_of_not_le hlt))
  not_taken earlier label later h := by
    obtain ⟨-, n, rfl, -, -, hfree, -⟩ := minted_of_history h
    exact ⟨fun hreserved => hfree (.inr hreserved), fun hbound => hfree (.inl hbound)⟩
  increasing := (counts_after reserved calls).increasing
  nodup := by
    obtain ⟨numbers, hnumbers, hincreasing⟩ := (counts_after reserved calls).increasing
    have hdifferent : numbers.Nodup := hincreasing.imp Nat.ne_of_lt
    rw [hnumbers]
    exact hdifferent.map fun _ _ heq => eq_of_numberedLabel_eq heq

example : (empty ["_2"]).history [.newLabel, .bindLabel "_1" none, .newLabel] =
    [.minted "_0", .bound "_1" none (.ok 0), .minted "_3"] := by
  decide +kernel

end Builder

end TinyCompiler
