import TinyCompiler.Proofs.Calls

/-!
# What becomes of a sensible program

Of the trees that reading builds, lowering can refuse a constant that is infinite, a second function
of the same name, and a call to what is not there, and nothing else. Which of these it meets first
is said here: constants and names in the order of the functions, and calls only when all functions
are lowered.
-/

namespace TinyCompiler

/-! ### Sensible trees -/

/-- An expression as reading builds it from tokens that are numbers. -/
inductive Node.IsExpression : Node → Prop
  | constant {v : Binary64} {l : Option Location} (hv : v ≠ .nan) : IsExpression (.constant v l)
  | symbol {x : String} {l : Option Location} : IsExpression (.symbol x l)
  | binary {op : Op} {left right : Node} {l : Option Location} (hleft : IsExpression left)
      (hright : IsExpression right) : IsExpression (.binary (some op) left right l)
  | negation {e : Node} {l : Option Location} (h : IsExpression e) :
      IsExpression (.unary (some .sub) e l)
  | call {name : String} {es : List Node} {l : Option Location} (h : ∀ e ∈ es, IsExpression e) :
      IsExpression (.call name es l)

/-- A statement as reading builds it. -/
inductive Node.IsStatement : Node → Prop
  | giveBack {l : Option Location} : IsStatement (.giveBack .missing l)
  | giveBackValue {e : Node} {l : Option Location} (he : e.IsExpression) :
      IsStatement (.giveBack e l)
  | assign {x : String} {e : Node} {l : Option Location} (he : e.IsExpression) :
      IsStatement (.assign x e l)
  | conditional {c t : Node} {l : Option Location} (hc : c.IsExpression) (ht : t.IsExpression) :
      IsStatement (.conditional c t .missing l)
  | conditionalElse {c t e : Node} {l : Option Location} (hc : c.IsExpression)
      (ht : t.IsExpression) (he : e.IsExpression) : IsStatement (.conditional c t e l)

/-- A function as reading builds it. -/
def Function.IsSensible (f : Function) : Prop := ∀ n ∈ f.body, n.IsStatement

/-- An infinite constant occurs in a tree. -/
def Node.Overflows (n : Node) : Prop :=
  ∃ negative l, Node.constant (.infinite negative) l ∈ n.nodes

/-- An infinite constant occurs in a function. -/
def Function.Overflows (f : Function) : Prop := ∃ n ∈ f.body, n.Overflows

namespace Node

variable {v : Binary64} {x : String} {op : Option Op} {e c t left right : Node} {es : List Node}
  {l : Option Location}

@[simp] lemma overflows_missing : ¬ Overflows .missing := by
  simp [Overflows]

@[simp] lemma overflows_constant :
    Overflows (.constant v l) ↔ ∃ negative, v = .infinite negative := by
  simp [Overflows, eq_comm]

@[simp] lemma overflows_symbol : ¬ Overflows (.symbol x l) := by
  simp [Overflows]

@[simp] lemma overflows_binary :
    Overflows (.binary op left right l) ↔ left.Overflows ∨ right.Overflows := by
  simp [Overflows, exists_or]

@[simp] lemma overflows_unary : Overflows (.unary op e l) ↔ e.Overflows := by
  simp [Overflows]

@[simp] lemma overflows_call : Overflows (.call x es l) ↔ ∃ e ∈ es, e.Overflows := by
  simp only [Overflows, nodes_call, List.mem_cons, reduceCtorEq, false_or, List.mem_flatMap]
  constructor
  · rintro ⟨negative, l, e, he, hmem⟩
    exact ⟨e, he, negative, l, hmem⟩
  · rintro ⟨e, he, negative, l, hmem⟩
    exact ⟨negative, l, e, he, hmem⟩

@[simp] lemma overflows_assign : Overflows (.assign x e l) ↔ e.Overflows := by
  simp [Overflows]

@[simp] lemma overflows_giveBack : Overflows (.giveBack e l) ↔ e.Overflows := by
  simp [Overflows]

@[simp] lemma overflows_conditional :
    Overflows (.conditional c t e l) ↔ c.Overflows ∨ t.Overflows ∨ e.Overflows := by
  simp [Overflows, exists_or]

/-! ### Expressions -/

/-- Arguments are lowered if each of them is. -/
lemma exists_lowerArguments (h : ∀ e ∈ es, ∀ b, ∃ b', e.lowerExpression b = .ok b')
    (position : Nat) (b : Builder) : ∃ b', lowerArguments position es b = .ok b' := by
  induction es generalizing position b with
  | nil => exact ⟨b, rfl⟩
  | cons e es ih =>
    obtain ⟨b₁, h₁⟩ := h e (by simp) b
    obtain ⟨b₂, h₂⟩ := ih (fun e he => h e (by simp [he])) (position + 1)
      (b₁.append (.mov accumulator (argumentRegister position)))
    refine ⟨b₂, ?_⟩
    rw [lowerArguments, h₁]
    exact h₂

/-- The first argument that is refused decides. -/
lemma lowerArguments_of_overflows {error : CodeError}
    (hok : ∀ e ∈ es, ¬ e.Overflows → ∀ b, ∃ b', e.lowerExpression b = .ok b')
    (herror : ∀ e ∈ es, e.Overflows → ∀ b, e.lowerExpression b = .error error)
    (hes : ∃ e ∈ es, e.Overflows) (position : Nat) (b : Builder) :
    lowerArguments position es b = .error error := by
  induction es generalizing position b with
  | nil => simp at hes
  | cons e es ih =>
    rw [lowerArguments]
    by_cases he : e.Overflows
    · rw [herror e (by simp) he b]
      rfl
    · -- the infinite constant is in a later argument
      obtain ⟨b₁, h₁⟩ := hok e (by simp) he b
      rw [h₁]
      refine ih (fun e he => hok e (by simp [he])) (fun e he => herror e (by simp [he])) ?_ _ _
      obtain ⟨e', he', hover⟩ := hes
      rcases List.mem_cons.mp he' with rfl | hmem
      · exact absurd hover he
      · exact ⟨e', hmem, hover⟩

namespace IsExpression

/-- A sensible expression without infinite constants is lowered. -/
lemma exists_lower (h : e.IsExpression) (hfinite : ¬ e.Overflows) (b : Builder) :
    ∃ b', e.lowerExpression b = .ok b' := by
  induction h generalizing b with
  | @constant v l hv =>
    rw [overflows_constant] at hfinite
    cases v with
    | nan => exact absurd rfl hv
    | infinite negative => exact absurd ⟨negative, rfl⟩ hfinite
    | finite negative significand exponent => exact ⟨_, rfl⟩
  | symbol => exact ⟨_, rfl⟩
  | @binary op left right l hleft hright ihleft ihright =>
    rw [overflows_binary, not_or] at hfinite
    obtain ⟨b₁, h₁⟩ := ihleft hfinite.1 b
    obtain ⟨b₂, h₂⟩ := ihright hfinite.2 (b₁.append (.mov accumulator scratch))
    refine ⟨b₂.append (.binOp scratch (some op) accumulator), ?_⟩
    rw [lowerExpression, h₁]
    show (right.lowerExpression _ >>= _) = _
    rw [h₂]
    rfl
  | negation h ih =>
    rw [overflows_unary] at hfinite
    obtain ⟨b₁, h₁⟩ := ih hfinite b
    refine ⟨b₁.append (.unOp .sub accumulator), ?_⟩
    rw [lowerExpression, h₁]
    rfl
  | @call name es l h ih =>
    rw [overflows_call] at hfinite
    have hes : ∀ e ∈ es, ∀ b, ∃ b', e.lowerExpression b = .ok b' := by
      intro e he
      exact ih e he fun hover => hfinite ⟨e, he, hover⟩
    obtain ⟨b₁, h₁⟩ := exists_lowerArguments hes 0 b
    refine ⟨b₁.append (.call (.label name)), ?_⟩
    rw [lowerExpression, h₁]
    rfl

/-- A sensible expression with an infinite constant is refused for that. -/
lemma lower_of_overflows (h : e.IsExpression) (hover : e.Overflows) (b : Builder) :
    e.lowerExpression b = .error .infiniteConstant := by
  induction h generalizing b with
  | constant hv =>
    obtain ⟨negative, rfl⟩ := overflows_constant.mp hover
    rfl
  | symbol => exact absurd hover overflows_symbol
  | @binary op left right l hleft hright ihleft ihright =>
    rw [lowerExpression]
    by_cases hl : left.Overflows
    · rw [ihleft hl b]
      rfl
    · obtain ⟨b₁, h₁⟩ := hleft.exists_lower hl b
      rw [h₁]
      show (right.lowerExpression _ >>= _) = _
      rw [ihright ((overflows_binary.mp hover).resolve_left hl)]
      rfl
  | negation h ih =>
    rw [lowerExpression, ih (overflows_unary.mp hover) b]
    rfl
  | @call name es l h ih =>
    have hes := lowerArguments_of_overflows (fun e he hfinite => (h e he).exists_lower hfinite)
      (fun e he hover => ih e he hover) (overflows_call.mp hover) 0 b
    rw [lowerExpression, hes]
    rfl

end IsExpression

/-! ### Statements -/

lemma IsExpression.isMissing_eq_false (h : e.IsExpression) : e.isMissing = false := by
  cases h <;> rfl

section Statements

variable {n : Node} {b : Builder} {reserved declared : List String} {count : Nat}

/-- A condition and a first branch that are lowered leave the second branch to be lowered after the
label, which can always be bound. -/
lemma exists_lowerConditional (hc : c.IsExpression) (ht : t.IsExpression)
    (hcfinite : ¬ c.Overflows) (htfinite : ¬ t.Overflows)
    (hb : b.Labelled reserved declared count) :
    ∃ b', ∀ e, lowerConditional c t e b = if e.isMissing then .ok b' else e.lowerExpression b' := by
  obtain ⟨b₁, h₁⟩ := hc.exists_lower hcfinite b
  let new := (b₁.append (.cmp (.imm 0) accumulator)).newLabel
  obtain ⟨b₃, h₃⟩ := ht.exists_lower htfinite (new.2.append (.jez (.label new.1)))
  have hfree : b₃.labels.get? new.1 = none := by
    have hcondition := (lowers_of_lowerExpression c h₁).keepsLabels trivial
    have hthen := (lowers_of_lowerExpression t h₃).keepsLabels trivial
    exact (hb.mint_conditional hcondition rfl hthen).1
  refine ⟨b₃.mark new.1, fun e => ?_⟩
  rw [lowerConditional, h₁]
  show (t.lowerExpression (new.2.append (.jez (.label new.1))) >>= _) = _
  rw [h₃]
  show (b₃.bindLabel new.1 none >>= _) = _
  rw [Builder.bindLabel_of_get?_eq_none hfree]
  rfl

/-- A conditional is refused for an infinite constant in the condition or the first branch before
its second branch is looked at. -/
lemma lowerConditional_of_overflows (hc : c.IsExpression) (ht : t.IsExpression)
    (hover : c.Overflows ∨ t.Overflows) :
    lowerConditional c t e b = .error .infiniteConstant := by
  rw [lowerConditional]
  by_cases hcover : c.Overflows
  · rw [hc.lower_of_overflows hcover b]
    rfl
  · obtain ⟨b₁, h₁⟩ := hc.exists_lower hcover b
    let new := (b₁.append (.cmp (.imm 0) accumulator)).newLabel
    rw [h₁]
    show (t.lowerExpression (new.2.append (.jez (.label new.1))) >>= _) = _
    rw [ht.lower_of_overflows (hover.resolve_left hcover)]
    rfl

namespace IsStatement

/-- A sensible statement without infinite constants is lowered. -/
lemma exists_lower (h : n.IsStatement) (hfinite : ¬ n.Overflows)
    (hb : b.Labelled reserved declared count) : ∃ b', lowerStatement b n = .ok b' := by
  cases h with
  | giveBack => exact ⟨_, rfl⟩
  | @giveBackValue e l he =>
    obtain ⟨b₁, h₁⟩ := he.exists_lower (by simpa using hfinite) b
    refine ⟨b₁.append .ret, ?_⟩
    simp only [lowerStatement, he.isMissing_eq_false, Bool.false_eq_true, if_false, h₁]
    rfl
  | @assign x e l he =>
    obtain ⟨b₁, h₁⟩ := he.exists_lower (by simpa using hfinite) b
    refine ⟨(b₁.slotFor x).2.append (.mov accumulator (.slot (b₁.slotFor x).1)), ?_⟩
    rw [lowerStatement, h₁]
    rfl
  | conditional hc ht =>
    rw [overflows_conditional, not_or, not_or] at hfinite
    obtain ⟨b₁, h₁⟩ := exists_lowerConditional hc ht hfinite.1 hfinite.2.1 hb
    exact ⟨b₁, h₁ .missing⟩
  | @conditionalElse c t e l hc ht he =>
    rw [overflows_conditional, not_or, not_or] at hfinite
    obtain ⟨b₁, h₁⟩ := exists_lowerConditional hc ht hfinite.1 hfinite.2.1 hb
    obtain ⟨b₂, h₂⟩ := he.exists_lower hfinite.2.2 b₁
    refine ⟨b₂, ?_⟩
    rw [lowerStatement, h₁ e, he.isMissing_eq_false]
    exact h₂

/-- A sensible statement with an infinite constant is refused for that. -/
lemma lower_of_overflows (h : n.IsStatement) (hover : n.Overflows)
    (hb : b.Labelled reserved declared count) :
    lowerStatement b n = .error .infiniteConstant := by
  cases h with
  | giveBack => simp at hover
  | @giveBackValue e l he =>
    simp only [lowerStatement, he.isMissing_eq_false, Bool.false_eq_true, if_false,
      he.lower_of_overflows (overflows_giveBack.mp hover) b]
    rfl
  | assign he =>
    rw [lowerStatement, he.lower_of_overflows (overflows_assign.mp hover) b]
    rfl
  | conditional hc ht =>
    refine lowerConditional_of_overflows hc ht ?_
    simpa using hover
  | @conditionalElse c t e l hc ht he =>
    rw [overflows_conditional] at hover
    by_cases hfirst : c.Overflows ∨ t.Overflows
    · exact lowerConditional_of_overflows hc ht hfirst
    · -- the second branch is lowered after the label, whatever the first one was
      have helse : e.Overflows := by tauto
      rw [not_or] at hfirst
      obtain ⟨b₁, h₁⟩ := exists_lowerConditional hc ht hfirst.1 hfirst.2 hb
      rw [lowerStatement, h₁ e, he.isMissing_eq_false]
      exact he.lower_of_overflows helse b₁

end IsStatement

/-! ### Bodies -/

lemma exists_foldlM_lowerStatement {ns : List Node} (h : ∀ n ∈ ns, n.IsStatement)
    (hfinite : ¬ ∃ n ∈ ns, n.Overflows) (hb : b.Labelled reserved declared count) :
    ∃ b', ns.foldlM lowerStatement b = .ok b' := by
  induction ns generalizing b count with
  | nil => exact ⟨b, rfl⟩
  | cons n ns ih =>
    obtain ⟨b₁, h₁⟩ := (h n (by simp)).exists_lower
      (fun hover => hfinite ⟨n, by simp, hover⟩) hb
    have hb₁ := (lowers_of_lowerStatement h₁).labelled_statement hb
    obtain ⟨b₂, h₂⟩ := ih (fun m hm => h m (by simp [hm]))
      (fun ⟨m, hm, hover⟩ => hfinite ⟨m, by simp [hm], hover⟩) hb₁
    refine ⟨b₂, ?_⟩
    rw [List.foldlM_cons, h₁]
    exact h₂

lemma foldlM_lowerStatement_of_overflows {ns : List Node} (h : ∀ n ∈ ns, n.IsStatement)
    (hover : ∃ n ∈ ns, n.Overflows) (hb : b.Labelled reserved declared count) :
    ns.foldlM lowerStatement b = .error .infiniteConstant := by
  induction ns generalizing b count with
  | nil => simp at hover
  | cons n ns ih =>
    rw [List.foldlM_cons]
    by_cases hn : n.Overflows
    · rw [(h n (by simp)).lower_of_overflows hn hb]
      rfl
    · obtain ⟨b₁, h₁⟩ := (h n (by simp)).exists_lower hn hb
      rw [h₁]
      refine ih (fun m hm => h m (by simp [hm])) ?_
        ((lowers_of_lowerStatement h₁).labelled_statement hb)
      obtain ⟨m, hm, hover⟩ := hover
      rcases List.mem_cons.mp hm with rfl | hm
      · exact absurd hover hn
      · exact ⟨m, hm, hover⟩

end Statements

end Node

/-! ### Functions -/

section Functions

variable {fs : List Function} {f : Function} {b : Builder} {reserved declared : List String}
  {count : Nat}

/-- A function whose name is new is lowered like its body. -/
lemma lower_eq_foldlM (hb : b.Labelled reserved declared count) (hf : f.name ∈ reserved)
    (hnew : f.name ∉ declared) : f.lower b = f.body.foldlM Node.lowerStatement (b.mark f.name) := by
  rw [Function.lower, Builder.bindLabel_of_get?_eq_none ((hb.get?_eq_none_iff hf).mpr hnew)]
  rfl

/-- A function whose name was declared before is refused for that. -/
lemma lower_of_mem_declared (hb : b.Labelled reserved declared count) (hf : f.name ∈ declared) :
    ∃ first, f.lower b = .error (.duplicateLabel f.name first) := by
  cases hget : b.labels.get? f.name with
  | none =>
    exact absurd hf ((hb.get?_eq_none_iff (hb.declared_subset hf)).mp hget)
  | some first =>
    refine ⟨first, ?_⟩
    rw [Function.lower, Builder.bindLabel_of_get?_eq_some hget]
    rfl

lemma not_mem_declared_of_nodup (h : (declared ++ (f :: fs).map (·.name)).Nodup) :
    f.name ∉ declared := by
  intro hmem
  exact (List.nodup_append.mp h).2.2 _ hmem _ (by simp) rfl

/-- Functions of different names without infinite constants are lowered. -/
lemma exists_foldlM_lower (hfs : ∀ f ∈ fs, f.IsSensible) (hfinite : ¬ ∃ f ∈ fs, f.Overflows)
    (hb : b.Labelled reserved declared count) (hnames : fs.map (·.name) ⊆ reserved)
    (hnodup : (declared ++ fs.map (·.name)).Nodup) :
    ∃ b', fs.foldlM Function.lower b = .ok b' := by
  induction fs generalizing b declared count with
  | nil => exact ⟨b, rfl⟩
  | cons f fs ih =>
    rw [List.map_cons, List.cons_subset] at hnames
    have hnew := not_mem_declared_of_nodup hnodup
    obtain ⟨b₁, h₁⟩ := Node.exists_foldlM_lowerStatement (hfs f (by simp))
      (fun hover => hfinite ⟨f, by simp, hover⟩) (hb.declare hnames.1)
    rw [← lower_eq_foldlM hb hnames.1 hnew] at h₁
    obtain ⟨b₂, h₂⟩ := ih (fun g hg => hfs g (by simp [hg]))
      (fun ⟨g, hg, hover⟩ => hfinite ⟨g, by simp [hg], hover⟩)
      (labelled_of_lower h₁ hb hnames.1) hnames.2 (by simpa using hnodup)
    refine ⟨b₂, ?_⟩
    rw [List.foldlM_cons, h₁]
    exact h₂

/-- Functions of different names with an infinite constant are refused for that. -/
lemma foldlM_lower_of_overflows (hfs : ∀ f ∈ fs, f.IsSensible) (hover : ∃ f ∈ fs, f.Overflows)
    (hb : b.Labelled reserved declared count) (hnames : fs.map (·.name) ⊆ reserved)
    (hnodup : (declared ++ fs.map (·.name)).Nodup) :
    fs.foldlM Function.lower b = .error .infiniteConstant := by
  induction fs generalizing b declared count with
  | nil => simp at hover
  | cons f fs ih =>
    rw [List.map_cons, List.cons_subset] at hnames
    have hnew := not_mem_declared_of_nodup hnodup
    have hmark := hb.declare hnames.1
    rw [List.foldlM_cons]
    by_cases hf : f.Overflows
    · rw [lower_eq_foldlM hb hnames.1 hnew,
        Node.foldlM_lowerStatement_of_overflows (hfs f (by simp)) hf hmark]
      rfl
    · obtain ⟨b₁, h₁⟩ := Node.exists_foldlM_lowerStatement (hfs f (by simp)) hf hmark
      rw [← lower_eq_foldlM hb hnames.1 hnew] at h₁
      rw [h₁]
      refine ih (fun g hg => hfs g (by simp [hg])) ?_ (labelled_of_lower h₁ hb hnames.1) hnames.2
        (by simpa using hnodup)
      obtain ⟨g, hg, hover⟩ := hover
      rcases List.mem_cons.mp hg with rfl | hg
      · exact absurd hover hf
      · exact ⟨g, hg, hover⟩

end Functions

/-! ### Programs -/

namespace Program

variable {p : Program} {before after : List Function} {d : Function}

lemma lower_of_foldlM_error {error : CodeError}
    (h : p.functions.foldlM Function.lower (.empty p.names) = .error error) :
    p.lower = .error error := by
  show (p.functions.foldlM Function.lower (.empty p.names) >>= fun b => b.finish) = _
  rw [h]
  rfl

lemma names_subset_of_eq_append (hd : p.functions = before ++ d :: after) :
    before.map (·.name) ⊆ p.names := by
  rw [names, hd, List.map_append]
  exact List.subset_append_left _ _

/-- An infinite constant before the first function whose name is repeated. -/
lemma lower_of_overflows_before (hp : ∀ f ∈ p.functions, f.IsSensible)
    (hd : p.functions = before ++ d :: after) (hnodup : (before.map (·.name)).Nodup)
    (hover : ∃ f ∈ before, f.Overflows) : p.lower = .error .infiniteConstant := by
  apply lower_of_foldlM_error
  have hbefore := foldlM_lower_of_overflows (fun f hf => hp f (by simp [hd, hf])) hover
    (.empty p.names) (names_subset_of_eq_append hd) (by simpa using hnodup)
  rw [hd, List.foldlM_append, hbefore]
  rfl

/-- No infinite constant before the first function whose name is repeated. -/
lemma lower_of_repeated (hp : ∀ f ∈ p.functions, f.IsSensible)
    (hd : p.functions = before ++ d :: after) (hnodup : (before.map (·.name)).Nodup)
    (hrepeated : d.name ∈ before.map (·.name)) (hfinite : ¬ ∃ f ∈ before, f.Overflows) :
    ∃ first, p.lower = .error (.duplicateLabel d.name first) := by
  have hnames := names_subset_of_eq_append hd
  have hempty := Builder.Labelled.empty p.names
  obtain ⟨b, hb⟩ := exists_foldlM_lower (fun f hf => hp f (by simp [hd, hf])) hfinite hempty hnames
    (by simpa using hnodup)
  have hlabelled := labelled_of_foldlM_lower hb hempty hnames
  obtain ⟨first, hfirst⟩ := lower_of_mem_declared hlabelled hrepeated
  refine ⟨first, lower_of_foldlM_error ?_⟩
  -- the functions before it are lowered, and its own name is bound by one of them
  rw [hd, List.foldlM_append, hb]
  show List.foldlM Function.lower b (d :: after) = _
  rw [List.foldlM_cons, hfirst]
  rfl

/-- All names are different, and there is an infinite constant. -/
lemma lower_of_overflows (hp : ∀ f ∈ p.functions, f.IsSensible) (hnodup : p.names.Nodup)
    (hover : ∃ f ∈ p.functions, f.Overflows) : p.lower = .error .infiniteConstant :=
  lower_of_foldlM_error (foldlM_lower_of_overflows hp hover (.empty p.names)
    (List.Subset.refl p.names) hnodup)

/-- All names are different, and all constants are finite: then the calls decide. -/
lemma lower_of_finite (hp : ∀ f ∈ p.functions, f.IsSensible) (hnodup : p.names.Nodup)
    (hfinite : ¬ ∃ f ∈ p.functions, f.Overflows) :
    (∀ callee, p.callees.find? p.lacks = some callee →
      ∃ similar, p.lower = .error (.unresolvedLabel callee similar)) ∧
    (p.callees.find? p.lacks = none → ∃ c, p.lower = .ok c) := by
  obtain ⟨b, hb⟩ := exists_foldlM_lower hp hfinite (.empty p.names) (List.Subset.refl p.names)
    hnodup
  obtain ⟨hcomplete, hlacking⟩ := lower_of_foldlM hb
  exact ⟨hlacking, fun hnone => ⟨b.code, hcomplete hnone⟩⟩

end Program

end TinyCompiler
