import Mathlib.Data.List.Chain
import TinyCompiler.Proofs.Tree

/-!
# What a visit notes

A visit goes over a tree from the top and from left to right. If it goes on below the nodes it has
noted, it notes all nodes of the chosen kinds in the order of the walk; if not, it notes those of
them that have no node of a chosen kind above them. What stands above a node is said by its lineage,
the way from it up to the root (`Node.lineages`).

Everything that walks over a tree does the same at each node: it deals with the node and then with
the nodes right below it. So the walks are compared by one induction, from the nodes right below a
node to the node itself (`Node.inductionOnChildren`).
-/

namespace TinyCompiler.Node

variable {n : Node} {above : List Node} {chosen : NodeKind → Bool}

/-! ### Walks by the nodes right below -/

/-- What holds of a node if it holds of the nodes right below it holds of all nodes. -/
theorem inductionOnChildren {motive : Node → Prop}
    (h : ∀ n, (∀ c ∈ n.children, motive c) → motive n) (n : Node) : motive n :=
  h n fun c hc =>
    have := sizeOf_lt_of_mem_children hc
    inductionOnChildren h c
termination_by sizeOf n

lemma isMissing_eq_false_iff : n.isMissing = false ↔ n ≠ .missing := by
  cases n <;> simp [isMissing]

/-- No empty place is right below a node. -/
lemma ne_missing_of_mem_children {c : Node} (h : c ∈ n.children) : c ≠ .missing := by
  have hpresent := (List.mem_filter.mp h).2
  rwa [Bool.not_eq_true', isMissing_eq_false_iff] at hpresent

/-- Empty places make no difference to what is gathered from a row of nodes, if nothing is gathered
from them. -/
lemma flatMap_filter_isMissing {α : Type} {f : Node → List α} (hf : f .missing = [])
    (ns : List Node) : (ns.filter (!·.isMissing)).flatMap f = ns.flatMap f := by
  induction ns with
  | nil => rfl
  | cons n ns ih =>
    by_cases hn : n = .missing
    · rw [hn, List.filter_cons_of_neg (by simp [isMissing]), ih, List.flatMap_cons, hf]
      rfl
    · rw [List.filter_cons_of_pos (by simp [isMissing_eq_false_iff.mpr hn]), List.flatMap_cons,
        List.flatMap_cons, ih]

lemma preorderAll_eq_flatMap (depth : Nat) (ns : List Node) :
    preorderAll depth ns = ns.flatMap (preorder depth) := by
  induction ns with
  | nil => rfl
  | cons n ns ih => rw [preorderAll, ih, List.flatMap_cons]

lemma preorder_eq_cons (hn : n ≠ .missing) (depth : Nat) :
    n.preorder depth = (depth, n) :: n.children.flatMap (preorder (depth + 1)) := by
  have hmissing : preorder (depth + 1) .missing = [] := by rw [preorder]
  cases n <;> simp only [children, flatMap_filter_isMissing hmissing, preorder,
    preorderAll_eq_flatMap, List.flatMap_cons, List.flatMap_nil, List.append_nil,
    List.append_assoc]
  exact absurd rfl hn

lemma visit_eq (chosen : NodeKind → Bool) (descend : Bool) (n : Node) :
    n.visit chosen descend =
      if chosen n.kind then n :: if descend then n.children.flatMap (visit chosen descend) else []
      else n.children.flatMap (visit chosen descend) := by
  rw [visit]
  simp

lemma nodes_eq_cons (hn : n ≠ .missing) : n.nodes = n :: n.children.flatMap nodes := by
  rw [nodes, preorder_eq_cons hn, List.map_cons, List.map_flatMap]
  simp only [map_snd_preorder _ (0 + 1) 0]
  rfl

/-! ### Lineages -/

/-- All nodes of a tree in the order of a walk, each with the nodes above it, the nearest first, if
the root itself has the given nodes above it. -/
def lineages (above : List Node) (n : Node) : List (List Node × Node) :=
  if n.isMissing then []
  else (above, n) :: n.children.attach.flatMap fun c => c.1.lineages (n :: above)
termination_by sizeOf n
decreasing_by exact sizeOf_lt_of_mem_children c.2

lemma lineages_eq_cons (hn : n ≠ .missing) (above : List Node) :
    n.lineages above = (above, n) :: n.children.flatMap (lineages (n :: above)) := by
  rw [lineages, isMissing_eq_false_iff.mpr hn]
  simp

/-- A lineage goes up from the node to the root, each node right below the next, and on from
there. -/
lemma exists_of_mem_lineages {m : List Node × Node} (h : m ∈ n.lineages above) :
    ∃ between, m.1 = between ++ above ∧ (m.2 :: between).IsChain (· ∈ ·.children) ∧
      (m.2 :: between).getLast? = some n := by
  induction n using inductionOnChildren generalizing above with
  | h n ih =>
    by_cases hn : n = .missing
    · simp [hn, lineages, isMissing] at h
    · rw [lineages_eq_cons hn, List.mem_cons, List.mem_flatMap] at h
      obtain rfl | ⟨c, hc, hm⟩ := h
      · exact ⟨[], rfl, .singleton _, rfl⟩
      · obtain ⟨between, habove, hchain, hlast⟩ := ih c hc hm
        refine ⟨between ++ [n], by rw [habove, List.append_assoc]; rfl, ?_, ?_⟩
        · rw [← List.cons_append]
          refine hchain.append (.singleton n) ?_
          rintro x hx y ⟨⟩
          obtain rfl : c = x := Option.some.inj (hlast.symm.trans hx)
          exact hc
        · rw [← List.cons_append]
          exact List.getLast?_concat

/-- As many nodes stand above a node as its depth says. -/
lemma map_lineages (n : Node) (above : List Node) :
    (n.lineages above).map (fun m => (m.1.length, m.2)) = n.preorder above.length := by
  induction n using inductionOnChildren generalizing above with
  | h n ih =>
    by_cases hn : n = .missing
    · simp [hn, lineages, isMissing, preorder]
    · rw [lineages_eq_cons hn, preorder_eq_cons hn, List.map_cons, List.map_flatMap]
      exact congrArg _ (List.flatMap_congr fun c hc => ih c hc (n :: above))

/-! ### Visits -/

/-- A visit that goes on below the nodes it has noted notes all nodes of the chosen kinds. -/
lemma visit_true (chosen : NodeKind → Bool) (hn : n ≠ .missing) :
    n.visit chosen true = n.nodes.filter (chosen ·.kind) := by
  induction n using inductionOnChildren with
  | h n ih =>
    have hbelow : n.children.flatMap (visit chosen true) =
        (n.children.flatMap nodes).filter (chosen ·.kind) := by
      rw [List.filter_flatMap]
      exact List.flatMap_congr fun c hc => ih c hc (ne_missing_of_mem_children hc)
    rw [visit_eq, nodes_eq_cons hn, List.filter_cons, hbelow, if_pos rfl]

/-- Whether a node, given with those above it, is of a chosen kind and none above it is. -/
def isTopmost (chosen : NodeKind → Bool) (m : List Node × Node) : Bool :=
  chosen m.2.kind && m.1.all (!chosen ·.kind)

/-- Below a node of a chosen kind there are no topmost ones. -/
lemma filter_isTopmost_eq_nil {a : Node} (ha : a ∈ above) (hchosen : chosen a.kind = true)
    (n : Node) : (n.lineages above).filter (isTopmost chosen) = [] := by
  rw [List.filter_eq_nil_iff]
  intro m hm htop
  obtain ⟨between, habove, -, -⟩ := exists_of_mem_lineages hm
  have hall := (Bool.and_eq_true_iff.mp htop).2
  rw [List.all_eq_true] at hall
  have hnot := hall a (by rw [habove]; exact List.mem_append_right _ ha)
  simp [hchosen] at hnot

/-- A visit that does not go on below the nodes it has noted notes the topmost ones. -/
lemma visit_false (above : List Node) (hn : n ≠ .missing)
    (habove : ∀ a ∈ above, chosen a.kind = false) :
    n.visit chosen false = ((n.lineages above).filter (isTopmost chosen)).map (·.2) := by
  induction n using inductionOnChildren generalizing above with
  | h n ih =>
    rw [visit_eq, lineages_eq_cons hn, List.filter_cons, List.filter_flatMap]
    by_cases hchosen : chosen n.kind = true
    · -- the node is noted, and no node below it is topmost
      have htop : isTopmost chosen (above, n) = true := by
        simpa [isTopmost, hchosen] using habove
      have hbelow : n.children.flatMap
          (fun c => (c.lineages (n :: above)).filter (isTopmost chosen)) = [] := by
        rw [List.flatMap_eq_nil_iff]
        exact fun c _ => filter_isTopmost_eq_nil List.mem_cons_self hchosen c
      rw [if_pos hchosen, if_pos htop, hbelow]
      rfl
    · have htop : ¬ isTopmost chosen (above, n) = true := by simp [isTopmost, hchosen]
      rw [if_neg hchosen, if_neg htop, List.map_flatMap]
      refine List.flatMap_congr fun c hc => ih c hc _ (ne_missing_of_mem_children hc) ?_
      intro a ha
      rcases List.mem_cons.mp ha with rfl | ha
      · simpa using hchosen
      · exact habove a ha

/-- A visit that goes on below the nodes it has noted notes all nodes of the chosen kinds, each once
and in the order of the walk. A visit that does not notes those of them that have no node of a
chosen kind above them; what is above a node is the way from it to the root. -/
theorem checkedVisit_eq_filter (chosen : NodeKind → Bool) (n : Node) (hn : n ≠ .missing) :
    n.checkedVisit chosen true = .ok (((n.preorder 0).map (·.2)).filter (chosen ·.kind)) ∧
    n.checkedVisit chosen false =
      .ok (((n.lineages []).filter fun m => chosen m.2.kind && m.1.all (!chosen ·.kind)).map
        (·.2)) ∧
    (n.lineages []).map (fun m => (m.1.length, m.2)) = n.preorder 0 ∧
    ∀ m ∈ n.lineages [], (m.2 :: m.1).IsChain (· ∈ ·.children) ∧
      (m.2 :: m.1).getLast? = some n := by
  have hchecked : ∀ descend, n.checkedVisit chosen descend = .ok (n.visit chosen descend) := by
    intro descend
    rw [checkedVisit, isMissing_eq_false_iff.mpr hn]
    rfl
  refine ⟨?_, ?_, map_lineages n [], fun m hm => ?_⟩
  · rw [hchecked, visit_true chosen hn]
    rfl
  · rw [hchecked, visit_false [] hn (by simp)]
    rfl
  · obtain ⟨between, habove, hchain, hlast⟩ := exists_of_mem_lineages hm
    rw [habove, List.append_nil]
    exact ⟨hchain, hlast⟩

/-- The call of `g` with a call of `h` and an empty place as arguments. -/
def nestedCalls : Node := .call "g" [.call "h" [] none, .missing] none

/-- A call as an argument of another one, beside an empty place. -/
theorem checkedVisit_eq_filter_nestedCalls :
    Node.function "f" [nestedCalls, .missing] none ≠ .missing ∧
    checkedVisit (· == .call) true (.function "f" [nestedCalls, .missing] none) =
      .ok [nestedCalls, .call "h" [] none] ∧
    checkedVisit (· == .call) false (.function "f" [nestedCalls, .missing] none) =
      .ok [nestedCalls] := by
  have hpresent : Node.function "f" [nestedCalls, .missing] none ≠ .missing := by simp
  obtain ⟨hall, htopmost, -, -⟩ := checkedVisit_eq_filter (· == .call) _ hpresent
  refine ⟨hpresent, hall, htopmost.trans ?_⟩
  simp [lineages_eq_cons, children, isMissing, nestedCalls, kind]

end TinyCompiler.Node
