/-!
# Sets of characters as lists of ranges

A property of characters is given as a list of closed ranges of code points, in ascending order and
without overlap. Membership walks the list and stops at the first range that lies above the code
point, so the frequent low code points are decided after a few comparisons.
-/

namespace TinyCompiler.Text

/-- Closed ranges of code points, ascending and disjoint. -/
abbrev Ranges := List (Nat × Nat)

namespace Ranges

/-- Whether a code point lies in one of the ranges. -/
def has : Ranges → Nat → Bool
  | [], _ => false
  | (low, high) :: rest, n => if n < low then false else n ≤ high || has rest n

/-- The ranges are ascending and disjoint, and all of them lie above `floor`. -/
def sortedFrom : Nat → Ranges → Bool
  | _, [] => true
  | floor, (low, high) :: rest => floor ≤ low && low ≤ high && sortedFrom (high + 1) rest

/-- Nothing below the floor of a sorted table is in it. -/
theorem has_eq_false_of_lt {n : Nat} :
    ∀ {floor : Nat} {table : Ranges}, sortedFrom floor table = true → n < floor →
      has table n = false
  | _, [], _, _ => rfl
  | _, (low, high) :: rest, h, hn => by
    simp only [sortedFrom, Bool.and_eq_true, decide_eq_true_eq] at h
    simp only [has, if_pos (Nat.lt_of_lt_of_le hn h.1.1)]

/-- For a sorted table the early stop loses nothing: membership is being inside some range. -/
theorem has_eq_true_iff {n : Nat} :
    ∀ {floor : Nat} {table : Ranges}, sortedFrom floor table = true →
      (has table n = true ↔ ∃ r ∈ table, r.1 ≤ n ∧ n ≤ r.2)
  | _, [], _ => by simp [has]
  | _, (low, high) :: rest, h => by
    simp only [sortedFrom, Bool.and_eq_true, decide_eq_true_eq] at h
    by_cases hlow : n < low
    · have hrest : has rest n = false := has_eq_false_of_lt h.2 (by omega)
      have hnone : ¬ ∃ r ∈ rest, r.1 ≤ n ∧ n ≤ r.2 := by
        rw [← has_eq_true_iff h.2, hrest]
        exact Bool.false_ne_true
      simp only [has, if_pos hlow, List.mem_cons, exists_eq_or_imp, Bool.false_eq_true, false_iff]
      rintro (h' | h')
      · omega
      · exact hnone h'
    · simp only [has, if_neg hlow, Bool.or_eq_true, decide_eq_true_eq, List.mem_cons,
        exists_eq_or_imp, has_eq_true_iff h.2]
      constructor
      · rintro (h' | h')
        · exact Or.inl ⟨by omega, h'⟩
        · exact Or.inr h'
      · rintro (h' | h')
        · exact Or.inl h'.2
        · exact Or.inr h'

end Ranges

end TinyCompiler.Text
