import Mathlib.Data.List.Infix
import Mathlib.Tactic.Lemma
import TinyCompiler.Proofs.Completeness
import TinyCompiler.Proofs.Pipeline
import TinyCompiler.Proofs.Tiling

/-!
# Going on with a text

What is written after a text, on a new line, does not change the listing of the text: the listing of
the whole begins with it. This goes through all stages. The line feed ends the last token, and the
brace that closes the last function ends its function, so tokens and functions of the text come
first. Their code comes first too, although more names are reserved: the names of later functions
matter only where one of them would have been made up as a label (`Lowers.reserve`). At last, labels
are bound at ever later places (`Builder.MarksOnward`), so those of the text are printed before
those that are bound later, even at the end of the text's code, where both may stand.
-/

namespace TinyCompiler

/-! ### Tokens -/

lemma prefix_of_scan_newline {file a b : String} {ts us : List Token} (ha : scan file a = .ok ts)
    (hab : scan file (a ++ "\n" ++ b) = .ok us) : ts <+: us := by
  have hdelimiter : ∀ c ∈ ('\n' :: b.toList).head?, IsDelimiter c := by
    rintro c ⟨⟩
    exact .of_isBlank (by decide +kernel)
  have hdrain := ((tiles_of_scan ha).of_delimiter hdelimiter).drain
  have htext : (a ++ "\n" ++ b).toList = a.toList ++ '\n' :: b.toList := by simp
  rw [scan, Cursor.ofText, htext] at hab
  have hwhole := hdrain.symm.trans hab
  generalize (Cursor.mk file _ ('\n' :: b.toList)).drain.1 = rest at hwhole
  cases rest with
  | error e => cases hwhole
  | ok rest => exact ⟨rest, Except.ok.inj hwhole⟩

/-! ### Functions -/

namespace PartialStatement

variable {s : PartialStatement} {t : Token} {n : Node}

lemma lexeme_of_endStatement_done {m : Node} (h : endStatement m t = .ok (.done n)) :
    t.lexeme = .mark .semicolon := by
  rw [endStatement] at h
  split at h
  next hmark => exact Token.isMark_iff.mp hmark
  next => cases h

lemma lexeme_of_inExpression_done {p : Progress} {inside : Progress → PartialStatement}
    {after : Node → Except ParseError Advance}
    (hafter : ∀ e, after e = .ok (.done n) → t.lexeme = .mark .semicolon)
    (h : inExpression p t inside after = .ok (.done n)) : t.lexeme = .mark .semicolon := by
  rw [inExpression] at h
  split at h
  next => cases h
  next e he => exact hafter e h
  next => cases h

/-- Only a semicolon completes a statement. -/
lemma lexeme_of_step_done (h : s.step t = .ok (.done n)) : t.lexeme = .mark .semicolon := by
  cases s with
  | giveBack l =>
    simp only [step] at h
    split at h
    · exact lexeme_of_inExpression_done (fun e => lexeme_of_endStatement_done) h
    · exact lexeme_of_endStatement_done h
  | giveBackValue l value | assignValue l x value | whenFalse l c b value =>
    exact lexeme_of_inExpression_done (fun e => lexeme_of_endStatement_done) h
  | assign l | assignName l x | conditional l =>
    simp only [step] at h
    split at h <;> cases h
  | testing l c =>
    refine lexeme_of_inExpression_done (fun e he => ?_) h
    split at he <;> cases he
  | whenTrue l c b =>
    refine lexeme_of_inExpression_done (fun e he => ?_) h
    split at he
    · cases he
    · exact lexeme_of_endStatement_done he

end PartialStatement

namespace Reader

variable {r r' : Reader} {t : Token} {ts us : List Token} {p q : Program}

/-- A program that ends with a closing brace ends between functions. -/
lemma eq_outside_of_closeBrace (h : r.step t = .ok r') (ht : t.lexeme = .mark .closeBrace)
    (hp : r'.finish = .ok p) : r' = ⟨p.functions, .outside⟩ := by
  obtain ⟨functions, stage⟩ := r
  cases stage with
  | body l name statements =>
    simp only [step, if_pos (Token.isMark_iff.mpr ht)] at h
    cases h
    cases hp
    rfl
  | inside l name statements s =>
    simp only [step] at h
    split at h
    next =>
      cases h
      cases hp
    next n hn =>
      have hmark := PartialStatement.lexeme_of_step_done hn
      rw [ht] at hmark
      cases hmark
    next => cases h
  | outside =>
    cases h
    cases hp
  | announced l =>
    simp only [step, ht] at h
    cases h
  | named l name | opened l name | closed l name =>
    obtain ⟨hmark, -⟩ := expectMark_eq_ok h
    rw [ht] at hmark
    cases hmark

/-- Functions that have been read stay. -/
lemma functions_prefix_of_step (h : r.step t = .ok r') : r.functions <+: r'.functions := by
  obtain ⟨functions, stage⟩ := r
  cases stage with
  | outside =>
    cases h
    exact List.prefix_rfl
  | announced l =>
    simp only [step] at h
    split at h <;> cases h
    exact List.prefix_rfl
  | named l name | opened l name | closed l name =>
    obtain ⟨-, rfl⟩ := expectMark_eq_ok h
    exact List.prefix_rfl
  | body l name statements =>
    simp only [step] at h
    split at h
    · cases h
      exact List.prefix_append _ _
    · split at h <;> cases h
      exact List.prefix_rfl
  | inside l name statements s =>
    simp only [step] at h
    split at h <;> cases h
    · exact List.prefix_rfl
    · exact List.prefix_rfl

lemma functions_prefix_of_finish (h : r.finish = .ok p) : r.functions <+: p.functions := by
  rw [finish] at h
  split at h <;> cases h
  · exact List.prefix_rfl
  · exact List.prefix_append _ _

lemma functions_prefix_of_readTokens (h : r.readTokens ts = .ok p) :
    r.functions <+: p.functions := by
  induction ts generalizing r with
  | nil => exact functions_prefix_of_finish h
  | cons t ts ih =>
    rw [readTokens] at h
    split at h
    next r' hstep => exact (functions_prefix_of_step hstep).trans (ih h)
    next => cases h

/-- The state between tokens that are read and the last one. -/
lemma exists_step_of_readTokens (h : r.readTokens (ts ++ [t]) = .ok p) :
    ∃ r₁ r₂, r.Reads ts r₁ ∧ r₁.step t = .ok r₂ ∧ r₂.finish = .ok p := by
  induction ts generalizing r with
  | nil =>
    rw [List.nil_append, readTokens] at h
    split at h
    next r' hstep => exact ⟨r, r', fun rest => rfl, hstep, h⟩
    next => cases h
  | cons u ts ih =>
    rw [List.cons_append, readTokens] at h
    split at h
    next r' hstep =>
      obtain ⟨r₁, r₂, hreads, hlast, hfinish⟩ := ih h
      exact ⟨r₁, r₂, .cons hstep hreads, hlast, hfinish⟩
    next => cases h

end Reader

lemma functions_prefix_of_parse_append {ts us : List Token} {p q : Program}
    (hlast : ∀ t ∈ ts.getLast?, t.lexeme = .mark .closeBrace) (hp : parse ts = .ok p)
    (hq : parse (ts ++ us) = .ok q) : p.functions <+: q.functions := by
  rcases List.eq_nil_or_concat ts with rfl | ⟨ts, t, rfl⟩
  · cases hp
    exact List.nil_prefix
  · rw [List.concat_eq_append] at hlast hp hq
    obtain ⟨r₁, r₂, hreads, hstep, hfinish⟩ := Reader.exists_step_of_readTokens hp
    obtain rfl := Reader.eq_outside_of_closeBrace hstep (hlast t List.getLast?_concat) hfinish
    rw [parse, hreads.trans (.of_step hstep) us] at hq
    exact Reader.functions_prefix_of_readTokens hq

/-! ### More reserved names -/

namespace Builder

variable {b b' : Builder} {extra : List String} {label : String}

/-- Reserves more names. -/
def reserve (b : Builder) (extra : List String) : Builder :=
  { b with reserved := b.reserved ++ extra }

@[simp] lemma append_reserve (b : Builder) (extra : List String) (i : Instr) :
    (b.reserve extra).append i = (b.append i).reserve extra := rfl

@[simp] lemma slotFor_reserve (b : Builder) (extra : List String) (x : String) :
    (b.reserve extra).slotFor x = ((b.slotFor x).1, (b.slotFor x).2.reserve extra) := by
  simp only [slotFor, reserve]
  cases b.slots.get? x <;> rfl

/-- The same label is made up unless it is one of the new names. -/
lemma newLabel_reserve (h : b.newLabel = (label, b')) (hlabel : label ∉ extra) :
    (b.reserve extra).newLabel = (label, b'.reserve extra) := by
  obtain ⟨n, hnew, hle, hfree, hpassed⟩ := newLabel_spec b
  obtain ⟨n', hnew', hle', hfree', hpassed'⟩ := newLabel_spec (b.reserve extra)
  obtain ⟨rfl, rfl⟩ := Prod.mk.inj (h.symm.trans hnew)
  have htaken : ∀ name, (b.reserve extra).isTaken name = true ↔
      b.isTaken name = true ∨ name ∈ extra := by
    intro name
    simp only [isTaken_iff, reserve, List.mem_append, or_assoc]
  -- neither search can have stopped before the other
  have hnot : ¬ n' < n := by
    intro hlt
    have := (htaken _).mpr (.inl (hpassed n' hle' hlt))
    rw [hfree'] at this
    cases this
  have hnot' : ¬ n < n' := by
    intro hlt
    rcases (htaken _).mp (hpassed' n hle hlt) with hold | hnew
    · rw [hfree] at hold
      cases hold
    · exact hlabel hnew
  obtain rfl : n = n' := by omega
  exact hnew'

lemma labels_of_newLabel (h : b.newLabel = (label, b')) : b'.labels = b.labels := by
  obtain ⟨-, rfl⟩ := Prod.mk.inj h
  rfl

/-- No label that is bound is one of some names. -/
def Avoids (b : Builder) (names : List String) : Prop := ∀ name ∈ b.labels.names, name ∉ names

lemma Within.avoids (h : b.Within b'.code) (h' : b'.Avoids extra) : b.Avoids extra :=
  fun name hname => h' name ((h.labels.map _).subset hname)

lemma Avoids.not_mem_of_mark (h : (b.mark label).Avoids extra) : label ∉ extra :=
  h label (by simp [Table.names])

end Builder

/-- The code of a part does not depend on reserved names that no label has. -/
lemma Lowers.reserve {part : Part} {b b' : Builder} {extra : List String} (h : Lowers part b b')
    (hextra : b'.Avoids extra) : Lowers part (b.reserve extra) (b'.reserve extra) := by
  induction h with
  | constant hvalue => exact .constant hvalue
  | @symbol x l b => simpa using Lowers.symbol (x := x) (l := l) (b := b.reserve extra)
  | binary _ hright ihleft ihright =>
    exact .binary (ihleft (hright.within.avoids hextra)) (ihright hextra)
  | negation _ ih => exact .negation (ih hextra)
  | call _ ih => exact .call (ih hextra)
  | noArguments => exact .noArguments
  | argument _ hrest ihfirst ihrest =>
    exact .argument (ihfirst (hrest.within.avoids hextra)) (ihrest hextra)
  | evaluate _ ih => exact .evaluate (ih hextra)
  | @assign x e l b b₁ _ ih =>
    have hplaced := (Builder.Within.slotFor b₁ x).avoids hextra
    simpa using Lowers.assign (x := x) (l := l) (ih hplaced)
  | giveBack => exact .giveBack
  | giveBackValue _ ih => exact .giveBackValue (ih hextra)
  | conditional _ hlabel hthen hfree ihcondition ihthen =>
    have hafter := (Builder.Within.mark _ _).avoids hextra
    have hbefore := (Builder.Within.newLabel hlabel).avoids (hthen.within.avoids hafter)
    have hlabel' := Builder.newLabel_reserve hlabel hextra.not_mem_of_mark
    rw [← Builder.append_reserve] at hlabel'
    exact .conditional (ihcondition hbefore) hlabel' (ihthen hafter) hfree
  | conditionalElse _ hlabel hthen hfree helse ihcondition ihthen ihelse =>
    have hmarked := helse.within.avoids hextra
    have hafter := (Builder.Within.mark _ _).avoids hmarked
    have hbefore := (Builder.Within.newLabel hlabel).avoids (hthen.within.avoids hafter)
    have hlabel' := Builder.newLabel_reserve hlabel hmarked.not_mem_of_mark
    rw [← Builder.append_reserve] at hlabel'
    exact .conditionalElse (ihcondition hbefore) hlabel' (ihthen hafter) hfree (ihelse hextra)
  | noStatements => exact .noStatements
  | cons _ hrest ihfirst ihrest =>
    exact .cons (ihfirst (hrest.within.avoids hextra)) (ihrest hextra)

lemma foldlM_lower_reserve {fs : List Function} {b b' : Builder} {extra : List String}
    (h : fs.foldlM Function.lower b = .ok b') (hextra : b'.Avoids extra) :
    fs.foldlM Function.lower (b.reserve extra) = .ok (b'.reserve extra) := by
  induction fs generalizing b with
  | nil =>
    obtain rfl := Except.ok.inj h
    rfl
  | cons f fs ih =>
    rw [List.foldlM_cons, bind_eq_ok_iff] at h ⊢
    obtain ⟨b₁, h₁, h₂⟩ := h
    obtain ⟨hfree, hbody⟩ := Function.lowers_of_lower h₁
    have hfirst := hbody.reserve ((within_of_foldlM_lower h₂).avoids hextra)
    exact ⟨_, Function.lower_of_lowers hfree hfirst, ih h₂⟩

/-! ### Labels in order -/

/-- From one builder to another, labels were bound in order, at places that were next in between. -/
structure Builder.MarksOnward (b b' : Builder) : Prop where
  position_le : b.position ≤ b'.position
  labels : ∃ later, b'.labels = b.labels ++ later ∧ later.Pairwise (·.2 ≤ ·.2) ∧
    ∀ label ∈ later, (b.position : Int) ≤ label.2 ∧ label.2 ≤ b'.position

namespace Builder.MarksOnward

variable {b b₁ b₂ : Builder}

lemma of_labels_eq (hposition : b.position ≤ b₁.position) (hlabels : b₁.labels = b.labels) :
    b.MarksOnward b₁ :=
  ⟨hposition, [], by simp [hlabels], .nil, by simp⟩

lemma refl (b : Builder) : b.MarksOnward b := of_labels_eq (Nat.le_refl _) rfl

lemma trans (h : b.MarksOnward b₁) (h' : b₁.MarksOnward b₂) : b.MarksOnward b₂ := by
  obtain ⟨hposition, later, hlabels, hsorted, hbetween⟩ := h
  obtain ⟨hposition', later', hlabels', hsorted', hbetween'⟩ := h'
  refine ⟨hposition.trans hposition', later ++ later', ?_, ?_, ?_⟩
  · rw [hlabels', hlabels, List.append_assoc]
  · refine List.pairwise_append.mpr ⟨hsorted, hsorted', fun l hl l' hl' => ?_⟩
    exact Int.le_trans (hbetween l hl).2 (hbetween' l' hl').1
  · intro l hl
    rcases List.mem_append.mp hl with hl | hl
    · have := hbetween l hl
      omega
    · have := hbetween' l hl
      omega

lemma append (b : Builder) (i : Instr) : b.MarksOnward (b.append i) :=
  of_labels_eq (by simp) (labels_append b i)

lemma slotFor (b : Builder) (x : String) : b.MarksOnward (b.slotFor x).2 :=
  of_labels_eq (by simp) (labels_slotFor b x)

lemma newLabel {label : String} (h : b.newLabel = (label, b₁)) : b.MarksOnward b₁ :=
  of_labels_eq (position_of_newLabel h).ge (labels_of_newLabel h)

lemma mark (b : Builder) (name : String) : b.MarksOnward (b.mark name) :=
  ⟨Nat.le_refl _, [(name, (b.position : Int))], rfl, List.pairwise_singleton _ _, by simp⟩

end Builder.MarksOnward

lemma Builder.holdsAlong_marksOnward : HoldsAlong MarksOnward where
  refl := .refl
  trans h h' := h.trans h'
  append := .append
  slotFor := .slotFor
  newLabel h := .newLabel h
  mark := .mark

/-! ### Code -/

/-- The labels of a code are in the order of their places, and none is outside the code. -/
structure Code.InOrder (c : Code) : Prop where
  sorted : c.labels.Pairwise (·.2 ≤ ·.2)
  bounded : ∀ label ∈ c.labels, 0 ≤ label.2 ∧ label.2 ≤ c.instrs.length

lemma inOrder_of_lower {p : Program} {c : Code} (h : p.lower = .ok c) : c.InOrder := by
  obtain ⟨b, hb, -, rfl⟩ := Program.lower_eq_ok_iff.mp h
  obtain ⟨-, labels, hlabels, hsorted, hbounded⟩ :=
    Builder.holdsAlong_marksOnward.of_foldlM_lower hb
  have hcode : b.code.labels = labels := hlabels
  refine ⟨hcode ▸ hsorted, fun label hlabel => ?_⟩
  rw [b.length_instrs_code]
  exact hbounded label (hcode ▸ hlabel)

/-- A code begins with another one: its further instructions come after those of the other, and its
further labels are of places from there on. -/
structure Code.BeginsWith (d c : Code) : Prop where
  instrs : ∃ later, d.instrs = c.instrs ++ later
  labels : ∃ later, d.labels = c.labels ++ later ∧
    ∀ label ∈ later, (c.instrs.length : Int) ≤ label.2

/-- The code of a program begins with the code of its first functions, if no function after them is
named like a label of theirs. -/
lemma beginsWith_of_lower {p q : Program} {c d : Code} {later : List Function}
    (hq : q.functions = p.functions ++ later) (hc : p.lower = .ok c) (hd : q.lower = .ok d)
    (hnames : ∀ f ∈ later, f.name ∉ c.labels.names) : d.BeginsWith c := by
  obtain ⟨b, hb, -, rfl⟩ := Program.lower_eq_ok_iff.mp hc
  obtain ⟨b', hb', -, rfl⟩ := Program.lower_eq_ok_iff.mp hd
  have hextra : b.Avoids (later.map (·.name)) := by
    intro name hname hmem
    obtain ⟨f, hf, rfl⟩ := List.mem_map.mp hmem
    exact hnames f hf hname
  -- the first functions are lowered as they are alone, and the others go on from there
  have hfirst := foldlM_lower_reserve hb hextra
  have hempty : (Builder.empty (p.functions.map (·.name))).reserve (later.map (·.name)) =
      .empty (q.functions.map (·.name)) := by
    rw [hq, List.map_append]
    rfl
  rw [hempty] at hfirst
  rw [hq, List.foldlM_append, ← hq, hfirst] at hb'
  have hrest : later.foldlM Function.lower (b.reserve (later.map (·.name))) = .ok b' := hb'
  obtain ⟨instrs, hinstrs⟩ := (within_of_foldlM_lower hrest).instrs
  obtain ⟨-, labels, hlabels, -, hafter⟩ := Builder.holdsAlong_marksOnward.of_foldlM_lower hrest
  refine ⟨⟨instrs, hinstrs.symm⟩, labels, hlabels, fun label hlabel => ?_⟩
  rw [b.length_instrs_code]
  exact (hafter label hlabel).1

/-! ### Listings -/

lemma eq_ok_of_mapError {ε ε' α : Type} {x : Except ε α} {f : ε → ε'} {a : α}
    (h : x.mapError f = .ok a) : x = .ok a := by
  cases x with
  | error e => cases h
  | ok b => exact congrArg Except.ok (Except.ok.inj h)

namespace Layout

variable {layout : Layout} {index : Int} {is js : List Instr} {ls ms : Table Int}
  {xs ys : List String}

/-- Labels in order are printed as they were bound. -/
lemma weave_of_render {c : Code} (hc : c.InOrder) (h : layout.render c = .ok xs) :
    layout.weave 0 c.instrs c.labels = .ok xs := by
  have hprinted : printedLabels c.labels = c.labels := by
    have hfilter : (c.labels.filter fun label => 0 ≤ label.2) = c.labels :=
      List.filter_eq_self.mpr fun label hlabel => by simpa using (hc.bounded label hlabel).1
    rw [printedLabels, hfilter]
    exact List.mergeSort_of_pairwise (hc.sorted.imp (by simp))
  rw [render, hprinted] at h
  split at h
  next => cases h
  next => exact eq_ok_of_mapError h

/-- Labels of later places wait. -/
lemma takeWhile_append_of_lt (ls : Table Int) (hms : ∀ m ∈ ms, index < m.2) :
    (ls ++ ms).takeWhile (·.2 ≤ index) = ls.takeWhile (·.2 ≤ index) ∧
      (ls ++ ms).dropWhile (·.2 ≤ index) = ls.dropWhile (·.2 ≤ index) ++ ms := by
  induction ls with
  | nil =>
    cases ms with
    | nil => exact ⟨rfl, rfl⟩
    | cons m ms =>
      have : ¬ m.2 ≤ index := Int.not_le.mpr (hms m List.mem_cons_self)
      simp [this]
  | cons l ls ih =>
    by_cases hl : l.2 ≤ index
    · simpa [hl] using ih
    · simp [hl]

/-- The lines of instructions and labels come first if more instructions, and labels of places after
the first ones, are added. -/
lemma weave_prefix (hls : ∀ l ∈ ls, l.2 ≤ index + is.length)
    (hms : ∀ m ∈ ms, index + is.length ≤ m.2) (hxs : layout.weave index is ls = .ok xs)
    (hys : layout.weave index (is ++ js) (ls ++ ms) = .ok ys) : xs <+: ys := by
  induction is generalizing index ls xs ys with
  | nil =>
    cases hxs
    cases js with
    | nil =>
      cases hys
      rw [List.map_append]
      exact List.prefix_append _ _
    | cons j js =>
      simp only [List.nil_append, weave, bind_eq_ok_iff] at hys
      obtain ⟨text, -, rest, -, hys⟩ := hys
      -- the labels at the end of the first instructions were bound before those that come there
      have htake : (ls ++ ms).takeWhile (·.2 ≤ index) = ls ++ ms.takeWhile (·.2 ≤ index) :=
        List.takeWhile_append_of_pos fun l hl => by simpa using hls l hl
      rw [htake, List.map_append, List.append_assoc] at hys
      cases hys
      exact List.prefix_append _ _
  | cons i is ih =>
    simp only [List.cons_append, weave, bind_eq_ok_iff] at hxs hys
    obtain ⟨text, htext, rest, hrest, hxs⟩ := hxs
    obtain ⟨text', htext', rest', hrest', hys⟩ := hys
    obtain rfl : text = text' := Except.ok.inj (htext.symm.trans htext')
    have hlength : index + ((i :: is).length : Int) = index + 1 + is.length := by
      simp only [List.length_cons]
      omega
    rw [hlength] at hls hms
    have hwait : ∀ m ∈ ms, index < m.2 := by
      intro m hm
      have := hms m hm
      omega
    obtain ⟨htake, hdrop⟩ := takeWhile_append_of_lt ls hwait
    rw [htake] at hys
    rw [hdrop] at hrest'
    cases hxs
    cases hys
    have hprefix := ih (fun l hl => hls l ((List.dropWhile_sublist _).subset hl)) hms hrest hrest'
    simpa using hprefix

/-- The listing of a code that begins with another one begins with its listing. -/
lemma render_prefix {c d : Code} (hc : c.InOrder) (hd : d.InOrder) (h : d.BeginsWith c)
    (hxs : layout.render c = .ok xs) (hys : layout.render d = .ok ys) : xs <+: ys := by
  obtain ⟨⟨instrs, hinstrs⟩, labels, hlabels, hlater⟩ := h
  have hweave := weave_of_render hd hys
  rw [hinstrs, hlabels] at hweave
  refine weave_prefix (fun l hl => ?_) (fun m hm => ?_) (weave_of_render hc hxs) hweave
  · simpa using (hc.bounded l hl).2
  · simpa using hlater m hm

end Layout

/-! ### Compiling -/

/-- What a text was compiled to was made by the stages in turn. -/
lemma stages_of_compile {layout : Layout} {file source : String} {c : Compilation}
    (h : compile layout file source = .ok c) :
    scan file source = .ok c.tokens ∧ parse c.tokens = .ok c.program ∧
      c.program.lower = .ok c.code ∧ layout.render c.code = .ok c.lines := by
  simp only [compile, compileWith, bind_eq_ok_iff] at h
  obtain ⟨-, -, tokens, hscan, p, hparse, code, hlower, lines, hrender, h⟩ := h
  cases h
  exact ⟨eq_ok_of_mapError hscan, eq_ok_of_mapError hparse, eq_ok_of_mapError hlower, hrender⟩

/-- If a text is empty or ends with a closing brace, what is written after it on a new line does not
change its listing, as long as no function there is named like a label of its code. -/
theorem exists_assembly_eq_append (layout : Layout) (file a b : String) (c d : Compilation)
    (hc : compile layout file a = .ok c) (hd : compile layout file (a ++ "\n" ++ b) = .ok d)
    (hlast : ∀ t ∈ c.tokens.getLast?, t.lexeme = .mark .closeBrace)
    (hnames : ∀ f ∈ d.program.functions.drop c.program.functions.length,
      f.name ∉ c.code.labels.names) :
    ∃ rest, d.assembly = c.assembly ++ rest := by
  obtain ⟨hscan, hparse, hlower, hrender⟩ := stages_of_compile hc
  obtain ⟨hscan', hparse', hlower', hrender'⟩ := stages_of_compile hd
  obtain ⟨tokens, htokens⟩ := prefix_of_scan_newline hscan hscan'
  rw [← htokens] at hparse'
  obtain ⟨later, hlater⟩ := functions_prefix_of_parse_append hlast hparse hparse'
  rw [← hlater, List.drop_left] at hnames
  have hbegins := beginsWith_of_lower hlater.symm hlower hlower' hnames
  obtain ⟨lines, hlines⟩ := Layout.render_prefix (inOrder_of_lower hlower)
    (inOrder_of_lower hlower') hbegins hrender hrender'
  refine ⟨joinLines lines, ?_⟩
  rw [Compilation.assembly, Compilation.assembly, ← hlines, joinLines, List.map_append,
    String.join_append]
  rfl

/-- The tokens of `fun f(){if(1)2;}`. -/
def conditionalTokens : List Token :=
  [⟨.keyword .kwFun, some ⟨"a", 1, 1⟩⟩, ⟨.identifier "f", some ⟨"a", 1, 5⟩⟩,
    ⟨.mark .openParen, some ⟨"a", 1, 6⟩⟩, ⟨.mark .closeParen, some ⟨"a", 1, 7⟩⟩,
    ⟨.mark .openBrace, some ⟨"a", 1, 8⟩⟩, ⟨.keyword .kwIf, some ⟨"a", 1, 9⟩⟩,
    ⟨.mark .openParen, some ⟨"a", 1, 11⟩⟩, ⟨.number (.ofNat 1), some ⟨"a", 1, 12⟩⟩,
    ⟨.mark .closeParen, some ⟨"a", 1, 13⟩⟩, ⟨.number (.ofNat 2), some ⟨"a", 1, 14⟩⟩,
    ⟨.mark .semicolon, some ⟨"a", 1, 15⟩⟩, ⟨.mark .closeBrace, some ⟨"a", 1, 16⟩⟩]

/-- The tokens of `fun g(){}` on the next line. -/
def emptyTokens : List Token :=
  [⟨.keyword .kwFun, some ⟨"a", 2, 1⟩⟩, ⟨.identifier "g", some ⟨"a", 2, 5⟩⟩,
    ⟨.mark .openParen, some ⟨"a", 2, 6⟩⟩, ⟨.mark .closeParen, some ⟨"a", 2, 7⟩⟩,
    ⟨.mark .openBrace, some ⟨"a", 2, 8⟩⟩, ⟨.mark .closeBrace, some ⟨"a", 2, 9⟩⟩]

/-- The function `fun f(){if(1)2;}`. -/
def conditionalFunction : Function :=
  ⟨"f", [.conditional (.constant (.ofNat 1) (some ⟨"a", 1, 12⟩))
    (.constant (.ofNat 2) (some ⟨"a", 1, 14⟩)) .missing (some ⟨"a", 1, 9⟩)], some ⟨"a", 1, 1⟩⟩

/-- The instructions of its code, at whose end the label of the conditional stands. -/
def conditionalInstrs : List Instr :=
  [.mov (.imm 1) accumulator, .cmp (.imm 0) accumulator, .jez (.label "_0"),
    .mov (.imm 2) accumulator]

/-- A label at the end of a text's code and a function that is marked at the same place. -/
theorem exists_assembly_eq_append_conditional :
    ∃ c d, compile Layout.standard "a" "fun f(){if(1)2;}" = .ok c ∧
      compile Layout.standard "a" ("fun f(){if(1)2;}" ++ "\n" ++ "fun g(){}") = .ok d ∧
      c.code.labels = [("f", 0), ("_0", 4)] ∧ d.code.labels = [("f", 0), ("_0", 4), ("g", 4)] ∧
      ∃ rest, d.assembly = c.assembly ++ rest := by
  have hvalid : Layout.standard.validate = .ok () := rfl
  have hscan : scan "a" "fun f(){if(1)2;}" = .ok conditionalTokens := by decide +kernel
  have hscan' : scan "a" ("fun f(){if(1)2;}" ++ "\n" ++ "fun g(){}") =
      .ok (conditionalTokens ++ emptyTokens) := by decide +kernel
  have hparse : parse conditionalTokens = .ok ⟨[conditionalFunction]⟩ := rfl
  have hparse' : parse (conditionalTokens ++ emptyTokens) =
      .ok ⟨[conditionalFunction, ⟨"g", [], some ⟨"a", 2, 1⟩⟩]⟩ := rfl
  have hlower : Program.lower ⟨[conditionalFunction]⟩ =
      .ok ⟨conditionalInstrs, [("f", 0), ("_0", 4)], []⟩ := by decide +kernel
  have hlower' : Program.lower ⟨[conditionalFunction, ⟨"g", [], some ⟨"a", 2, 1⟩⟩]⟩ =
      .ok ⟨conditionalInstrs, [("f", 0), ("_0", 4), ("g", 4)], []⟩ := by decide +kernel
  obtain ⟨lines, hrender⟩ : ∃ lines, Layout.standard.render
      ⟨conditionalInstrs, [("f", 0), ("_0", 4)], []⟩ = .ok lines :=
    exists_render rfl (isSensible_of_parse hparse (ne_nan_of_scan hscan)) hlower
  obtain ⟨lines', hrender'⟩ : ∃ lines, Layout.standard.render
      ⟨conditionalInstrs, [("f", 0), ("_0", 4), ("g", 4)], []⟩ = .ok lines :=
    exists_render rfl (isSensible_of_parse hparse' (ne_nan_of_scan hscan')) hlower'
  have hc := compile_of_render hvalid hscan hparse hlower hrender
  have hd := compile_of_render hvalid hscan' hparse' hlower' hrender'
  refine ⟨_, _, hc, hd, rfl, rfl, exists_assembly_eq_append _ _ _ _ _ _ hc hd ?_ ?_⟩
  · rintro t ⟨⟩
    rfl
  · intro f hf
    obtain rfl := List.mem_singleton.mp hf
    show "g" ∉ ["f", "_0"]
    decide

end TinyCompiler
