import Mathlib.Data.List.Dedup
import Mathlib.Data.List.Sort
import TinyCompiler.Proofs.Histories
import TinyCompiler.Proofs.Unambiguity

/-!
# Where labels are printed

A listing takes its labels from one row that is sorted by place, while code is asked for the labels
of one place at a time (`Code.labelsAt`). Both give the same: what comes before an instruction are
the labels of its place, and what is left after the last one are the labels of all later places, one
place after the other. This needs no more of the places than that they are numbers. They may be
negative, shared or beyond the end, and labels may be bound in any order.

The reason is that a sorted row of labels falls into the labels of its first place and those of
later places (`Layout.SortedFrom.split`), so taking off the front is looking for a place.
-/

namespace TinyCompiler

namespace Code

variable {c : Code}

/-- The lines of the labels of a place. -/
def labelLines (c : Code) (index : Int) : List String := (c.labelsAt index).map (· ++ ":")

/-- The places after the last instruction that labels mark, each once and in order. -/
def placesBeyond (c : Code) : List Int :=
  ((c.labels.map (·.2)).filter ((c.instrs.length : Int) ≤ ·)).dedup.insertionSort (· ≤ ·)

lemma mem_placesBeyond {index : Int} :
    index ∈ c.placesBeyond ↔ index ∈ c.labels.map (·.2) ∧ c.instrs.length ≤ index := by
  rw [placesBeyond, List.mem_insertionSort, List.mem_dedup, List.mem_filter, decide_eq_true_eq]

lemma pairwise_placesBeyond (c : Code) : c.placesBeyond.Pairwise (· < ·) := by
  have hnodup : c.placesBeyond.Nodup :=
    (List.perm_insertionSort _ _).nodup_iff.mpr (List.nodup_dedup _)
  exact (List.sortedLE_insertionSort.sortedLT_of_nodup hnodup).pairwise

end Code

namespace Layout

variable {layout : Layout} {labels : Table Int} {index : Int} {i : Instr} {is : List Instr}
  {texts : List String} {e : ListingError}

/-! ### Sorted labels -/

/-- Labels in the order of their places, none of which is before the given one. -/
structure SortedFrom (index : Int) (labels : Table Int) : Prop where
  sorted : labels.Pairwise fun a b => a.2 ≤ b.2
  not_before : ∀ label ∈ labels, index ≤ label.2

/-- The labels of the first place come first, then those of later places. -/
lemma SortedFrom.split (h : SortedFrom index labels) :
    labels.takeWhile (·.2 ≤ index) = labels.filter (·.2 == index) ∧
      labels.dropWhile (·.2 ≤ index) = labels.filter (index < ·.2) := by
  obtain ⟨hsorted, hfrom⟩ := h
  induction labels with
  | nil => exact ⟨rfl, rfl⟩
  | cons label labels ih =>
    have hlabel := hfrom label List.mem_cons_self
    by_cases hle : label.2 ≤ index
    · obtain rfl : label.2 = index := by omega
      obtain ⟨htake, hdrop⟩ :=
        ih hsorted.of_cons fun later hlater => hfrom later (List.mem_cons_of_mem _ hlater)
      simp [htake, hdrop]
    · -- from here on all places are later
      have hlater : ∀ later ∈ label :: labels, index < later.2 := by
        intro later hlater
        rcases List.mem_cons.mp hlater with rfl | hlater
        · omega
        · have := List.rel_of_pairwise_cons hsorted hlater
          omega
      have hnone : (label :: labels).filter (·.2 == index) = [] := by
        rw [List.filter_eq_nil_iff]
        intro later hmem
        have := hlater later hmem
        simp only [beq_iff_eq]
        omega
      have hall : (label :: labels).filter (index < ·.2) = label :: labels :=
        List.filter_eq_self.mpr fun later hmem => by simpa using hlater later hmem
      rw [hnone, hall]
      simp [hle]

lemma SortedFrom.later (h : SortedFrom index labels) :
    SortedFrom (index + 1) (labels.filter (index < ·.2)) := by
  refine ⟨h.sorted.sublist List.filter_sublist, fun label hlabel => ?_⟩
  have hlt : index < label.2 := by simpa using (List.mem_filter.mp hlabel).2
  omega

/-- It makes no difference to leave out labels that are not looked for. -/
lemma filter_filter_of_imp {p q : String × Int → Bool}
    (h : ∀ label, p label = true → q label = true) :
    (labels.filter q).filter p = labels.filter p := by
  rw [List.filter_filter]
  refine List.filter_congr fun label _ => ?_
  by_cases hlabel : p label = true
  · simp [hlabel, h label hlabel]
  · simp [hlabel]

/-- Sorted labels are the labels of one place after the other. -/
lemma flatMap_filter_of_sorted {places : List Int}
    (hsorted : labels.Pairwise fun a b => a.2 ≤ b.2) (hplaces : places.Pairwise (· < ·))
    (hmem : ∀ label ∈ labels, label.2 ∈ places) :
    (places.flatMap fun place => labels.filter (·.2 == place)) = labels := by
  induction places generalizing labels with
  | nil =>
    have hnil : labels = [] :=
      List.eq_nil_iff_forall_not_mem.mpr fun label hlabel => by simpa using hmem label hlabel
    rw [hnil]
    rfl
  | cons place places ih =>
    have hafter : ∀ place' ∈ places, place < place' := fun _ => List.rel_of_pairwise_cons hplaces
    have hfrom : SortedFrom place labels := by
      refine ⟨hsorted, fun label hlabel => ?_⟩
      rcases List.mem_cons.mp (hmem label hlabel) with heq | hlater
      · omega
      · have := hafter _ hlater
        omega
    obtain ⟨htake, hdrop⟩ := hfrom.split
    have hrest : (places.flatMap fun place' => labels.filter (·.2 == place')) =
        labels.filter (place < ·.2) := by
      rw [← ih hfrom.later.sorted hplaces.of_cons fun label hlabel => ?_]
      · refine List.flatMap_congr fun place' hplace' => Eq.symm ?_
        refine filter_filter_of_imp fun label hlabel => ?_
        obtain rfl : label.2 = place' := by simpa using hlabel
        exact decide_eq_true (hafter _ hplace')
      · obtain ⟨hlabel, hlt⟩ := List.mem_filter.mp hlabel
        rcases List.mem_cons.mp (hmem label hlabel) with heq | hlater
        · simp [heq] at hlt
        · exact hlater
    rw [List.flatMap_cons, hrest, ← htake, ← hdrop, List.takeWhile_append_dropWhile]

/-! ### Rows of lines -/

/-- The first instruction that has no text decides what is complained about. -/
lemma weave_of_error {before after : List Instr} (hbefore : ∀ j ∈ before, layout.Prints j)
    (hi : layout.instrText i = .error e) (index : Int) (labels : Table Int) :
    layout.weave index (before ++ i :: after) labels = .error e := by
  induction before generalizing index labels with
  | nil =>
    rw [List.nil_append, weave, hi]
    rfl
  | cons j before ih =>
    obtain ⟨text, htext⟩ := hbefore j List.mem_cons_self
    rw [List.cons_append, weave, htext]
    show (layout.weave _ _ _ >>= _) = _
    rw [ih fun j hj => hbefore j (List.mem_cons_of_mem _ hj)]
    rfl

/-- Sorted labels and instructions that have texts make lines in which every instruction has the
labels of its place before it. -/
lemma weave_of_texts {n : Nat}
    (htexts : List.Forall₂ (fun i text => layout.instrText i = .ok text) is texts)
    (h : SortedFrom n labels) :
    layout.weave n is labels =
      .ok (((texts.zipIdx n).flatMap fun t =>
        (labels.filter (·.2 == (t.2 : Int))).map labelLine ++ [layout.indent ++ t.1]) ++
        (labels.filter ((n + is.length : Int) ≤ ·.2)).map labelLine) := by
  induction htexts generalizing n labels with
  | nil =>
    have hall : labels.filter ((n + ([] : List Instr).length : Int) ≤ ·.2) = labels := by
      refine List.filter_eq_self.mpr fun label hlabel => ?_
      simpa using h.not_before label hlabel
    rw [hall]
    rfl
  | @cons i text is texts htext htexts ih =>
    -- the labels of the first place come before the instruction, those of later places wait
    obtain ⟨htake, hdrop⟩ := h.split
    have hbefore : ∀ t ∈ texts.zipIdx (n + 1),
        (labels.filter ((n : Int) < ·.2)).filter (·.2 == (t.2 : Int)) =
          labels.filter (·.2 == (t.2 : Int)) := by
      intro t ht
      have hle := List.le_snd_of_mem_zipIdx ht
      refine filter_filter_of_imp fun label hlabel => ?_
      have hplace : label.2 = t.2 := by simpa using hlabel
      exact decide_eq_true (by omega)
    have hend : (labels.filter ((n : Int) < ·.2)).filter
        (((n + 1 : Nat) + is.length : Int) ≤ ·.2) =
          labels.filter ((n + (i :: is).length : Int) ≤ ·.2) := by
      rw [filter_filter_of_imp fun label hlabel => ?_]
      · refine List.filter_congr fun label _ => ?_
        simp only [List.length_cons, decide_eq_decide]
        omega
      · simp only [decide_eq_true_eq] at hlabel ⊢
        omega
    have hrest := ih (n := n + 1) h.later
    rw [hend, List.flatMap_congr fun t ht => by rw [hbefore t ht]] at hrest
    rw [weave, htext]
    show (layout.weave _ _ _ >>= _) = _
    rw [htake, hdrop, show (n : Int) + 1 = (n + 1 : Nat) from rfl, hrest, List.zipIdx_cons,
      List.flatMap_cons]
    simp

/-! ### Listings -/

variable {c : Code}

lemma sortedFrom_printedLabels (labels : Table Int) : SortedFrom 0 (printedLabels labels) := by
  refine ⟨Code.pairwise_printedLabels labels, fun label hlabel => ?_⟩
  simpa using (List.mem_filter.mp (List.mem_mergeSort.mp hlabel)).2

/-- The labels of a place are printed as they were bound, unless the place is negative. -/
lemma map_labelLine_printedLabels (hindex : 0 ≤ index) :
    ((printedLabels c.labels).filter (·.2 == index)).map labelLine = c.labelLines index := by
  have hfilter : (printedLabels c.labels).filter (·.2 == index) =
      c.labels.filter (·.2 == index) := by
    rw [printedLabels, Code.filter_mergeSort]
    refine filter_filter_of_imp fun label hlabel => ?_
    obtain rfl : label.2 = index := by simpa using hlabel
    exact decide_eq_true hindex
  rw [hfilter, Code.labelLines, Code.labelsAt, List.map_map]
  rfl

/-- What is left of the labels after the last instruction. -/
lemma map_labelLine_beyond (c : Code) :
    ((printedLabels c.labels).filter ((c.instrs.length : Int) ≤ ·.2)).map labelLine =
      c.placesBeyond.flatMap c.labelLines := by
  have hsorted := (Code.pairwise_printedLabels c.labels).filter ((c.instrs.length : Int) ≤ ·.2)
  rw [← flatMap_filter_of_sorted hsorted c.pairwise_placesBeyond fun label hlabel => ?_,
    List.map_flatMap]
  · refine List.flatMap_congr fun place hplace => ?_
    have hle := (Code.mem_placesBeyond.mp hplace).2
    rw [filter_filter_of_imp fun label hlabel => ?_, map_labelLine_printedLabels (by omega)]
    obtain rfl : label.2 = place := by simpa using hlabel
    exact decide_eq_true hle
  · obtain ⟨hprinted, hle⟩ := List.mem_filter.mp hlabel
    refine Code.mem_placesBeyond.mpr ⟨List.mem_map_of_mem ?_, by simpa using hle⟩
    exact (List.mem_filter.mp (List.mem_mergeSort.mp hprinted)).1

/-- The labels of code are woven into the texts of its instructions by place. -/
lemma weave_printedLabels_of_texts
    (htexts : List.Forall₂ (fun i text => layout.instrText i = .ok text) c.instrs texts) :
    layout.weave 0 c.instrs (printedLabels c.labels) =
      .ok ((texts.zipIdx.flatMap fun t => c.labelLines t.2 ++ [layout.indent ++ t.1]) ++
        c.placesBeyond.flatMap c.labelLines) := by
  have hweave := weave_of_texts (n := 0) htexts (sortedFrom_printedLabels c.labels)
  rw [List.flatMap_congr fun t _ => by rw [map_labelLine_printedLabels (Int.natCast_nonneg t.2)],
    Int.natCast_zero, Int.zero_add, map_labelLine_beyond] at hweave
  exact hweave

lemma exists_texts (h : ∀ i ∈ is, layout.Prints i) :
    ∃ texts, List.Forall₂ (fun i text => layout.instrText i = .ok text) is texts := by
  induction is with
  | nil => exact ⟨[], .nil⟩
  | cons i is ih =>
    obtain ⟨text, htext⟩ := h i List.mem_cons_self
    obtain ⟨texts, htexts⟩ := ih fun j hj => h j (List.mem_cons_of_mem _ hj)
    exact ⟨text :: texts, .cons htext htexts⟩

lemma render_of_bound (layout : Layout)
    (h : ∀ name ∈ c.instrs.flatMap Instr.labels, name ∈ c.labels.names) :
    layout.render c = (layout.weave 0 c.instrs (printedLabels c.labels)).mapError .listing := by
  rcases c.checkLabels_cases with ⟨hcheck, -⟩ | ⟨before, name, after, hsplit, -, hfree, -⟩
  · rw [render, hcheck]
  · exact absurd (h name (by rw [hsplit]; simp)) hfree

lemma render_of_unbound (layout : Layout) {before after : List String} {name : String}
    (hsplit : c.instrs.flatMap Instr.labels = before ++ name :: after)
    (hbefore : ∀ other ∈ before, other ∈ c.labels.names) (hname : name ∉ c.labels.names) :
    layout.render c =
      .error (.code (.unresolvedLabel name (Text.similarNames name c.labels.names))) := by
  rcases c.checkLabels_cases with
    ⟨-, hall⟩ | ⟨before', name', after', hsplit', hbefore', hname', hcheck⟩
  · exact absurd (hall name (by rw [hsplit]; simp)) hname
  · -- there is only one first label that is not bound
    obtain ⟨-, hfirst⟩ := eq_of_run_append_eq hbefore (by simpa using hname) hbefore'
      (by simpa using hname') (hsplit.symm.trans hsplit')
    obtain ⟨rfl, -⟩ := List.cons.inj hfirst
    rw [render, hcheck]

end Layout

/-- What a listing is. If a label that is referred to is not bound, the first such label is
complained about, whatever else there is; if all are bound, the first instruction that has no text
is. Otherwise every instruction stands after the labels of its place, and after the last instruction
come the labels of later places, one place after the other. -/
theorem render_eq_labelLines (layout : Layout) (c : Code) :
    (∀ before name after, c.instrs.flatMap Instr.labels = before ++ name :: after →
      (∀ other ∈ before, other ∈ c.labels.names) → name ∉ c.labels.names →
      layout.render c =
        .error (.code (.unresolvedLabel name (Text.similarNames name c.labels.names)))) ∧
    ((∀ name ∈ c.instrs.flatMap Instr.labels, name ∈ c.labels.names) →
      (∀ before i after e, c.instrs = before ++ i :: after → (∀ j ∈ before, layout.Prints j) →
        layout.instrText i = .error e → layout.render c = .error (.listing e)) ∧
      ((∀ i ∈ c.instrs, layout.Prints i) →
        ∃ texts, List.Forall₂ (fun i text => layout.instrText i = .ok text) c.instrs texts ∧
          layout.render c =
            .ok ((texts.zipIdx.flatMap fun t => c.labelLines t.2 ++ [layout.indent ++ t.1]) ++
              c.placesBeyond.flatMap c.labelLines))) := by
  refine ⟨fun before name after hsplit hbefore hname =>
    Layout.render_of_unbound layout hsplit hbefore hname, fun hbound => ⟨?_, fun hprints => ?_⟩⟩
  · intro before i after e hsplit hbefore hi
    rw [Layout.render_of_bound layout hbound, hsplit, Layout.weave_of_error hbefore hi]
    rfl
  · obtain ⟨texts, htexts⟩ := Layout.exists_texts hprints
    refine ⟨texts, htexts, ?_⟩
    rw [Layout.render_of_bound layout hbound, Layout.weave_printedLabels_of_texts htexts]
    rfl

/-- Code with labels at all sorts of places, which were not bound in order. -/
def scattered (instrs : List Instr) : Code :=
  ⟨instrs, [("e", 7), ("b", 2), ("x", -1), ("a", 0), ("f", 7), ("c", 2), ("d", 1)], []⟩

/-- Labels at a negative place, at both instructions and at two places beyond the end; the same
labels with an instruction that has no text; and with a label that is not bound as well. -/
theorem render_eq_labelLines_scattered :
    Layout.standard.render (scattered [.jez (.label "b"), .ret]) =
      .ok ["a:", "\tjez b", "d:", "\tret", "b:", "c:", "e:", "f:"] ∧
    Layout.standard.render (scattered [.ret, .unOp .add accumulator, .other "?"]) =
      .error (.listing (.noMnemonic .add)) ∧
    Layout.standard.render (scattered [.other "?", .jmp (.label "z")]) =
      .error (.code (.unresolvedLabel "z"
        (Text.similarNames "z" ["e", "b", "x", "a", "f", "c", "d"]))) := by
  refine ⟨?_, ?_, ?_⟩
  · obtain ⟨-, hrender⟩ :=
      render_eq_labelLines Layout.standard (scattered [.jez (.label "b"), .ret])
    have hprints : ∀ i ∈ [.jez (.label "b"), .ret], Layout.standard.Prints i := by
      intro i hi
      rcases List.mem_cons.mp hi with rfl | hi
      · exact ⟨_, rfl⟩
      · rw [List.mem_singleton.mp hi]
        exact ⟨_, rfl⟩
    obtain ⟨texts, htexts, hlines⟩ := (hrender (by decide)).2 hprints
    obtain rfl : texts = ["jez b", "ret"] := by
      rcases htexts with _ | ⟨hjez, _ | ⟨hret, _ | _⟩⟩
      rw [← Except.ok.inj hjez, ← Except.ok.inj hret]
      rfl
    exact hlines
  · obtain ⟨-, hrender⟩ := render_eq_labelLines Layout.standard
      (scattered [.ret, .unOp .add accumulator, .other "?"])
    exact (hrender (by decide)).1 [.ret] _ _ _ rfl (by simp [Layout.Prints, Layout.instrText]) rfl
  · obtain ⟨hrender, -⟩ :=
      render_eq_labelLines Layout.standard (scattered [.other "?", .jmp (.label "z")])
    exact hrender [] "z" [] rfl (by simp) (by decide)

end TinyCompiler
