import TinyCompiler.Proofs.Machine
import TinyCompiler.Proofs.Meaning

/-!
# Code does what programs mean

The code of a program that keeps to the convention of registers, run from the label of a function,
returns exactly if the function does, and then shows the same variables and the same value.

A state of the machine shows a situation of the program if the accumulator holds the value computed
last and the places of the variables hold their values (`Machine.Shows`). In one direction, a run of
the machine is put together along the derivation of what a part of the program means
(`Means.simulated`). In the other one, a run that gets back to the caller is followed through the
code, and every function that is called on the way takes fewer steps than its caller
(`bodiesRecovered`); since the machine has only one way to go, the runs of the first direction
are parts of it.
-/

namespace TinyCompiler

/-- A state of the machine shows a situation. Variables without a place keep the values that they
have in `base`. -/
structure Machine.Shows (c : Code) (base : String → Int) (m : Machine) (s : Situation) :
    Prop where
  accumulator : m.registers 0 = s.accumulator
  placed : ∀ x i, c.slots.get? x = some i → m.slots i = s.store x
  unplaced : ∀ x, c.slots.get? x = none → s.store x = base x

namespace Machine.Shows

variable {c : Code} {base : String → Int} {m m' : Machine} {s s' : Situation}

/-- Only the accumulator and the places of variables are shown. -/
lemma congr (h : m.Shows c base s) (hregister : m'.registers 0 = m.registers 0)
    (hslots : m'.slots = m.slots) : m'.Shows c base s :=
  ⟨hregister.trans h.accumulator, fun x i hx => by rw [hslots, h.placed x i hx], h.unplaced⟩

lemma load (h : m.Shows c base s) (v : Int) : (m.load 0 v).Shows c base ⟨s.store, v⟩ := by
  refine ⟨?_, h.placed, h.unplaced⟩
  rw [registers_load, Function.update_self]

lemma load_of_ne (h : m.Shows c base s) {i : Int} (hi : i ≠ 0) (v : Int) :
    (m.load i v).Shows c base s :=
  h.congr (Function.update_of_ne hi.symm ..) rfl

/-- Writing to the place of a variable changes this variable only. -/
lemma store (h : m.Shows c base s) (hnumbered : c.slots.Numbered) {x : String} {i : Nat}
    (hx : c.slots.get? x = some i) (v : Int) :
    (m.store i v).Shows c base ⟨Function.update s.store x v, s.accumulator⟩ := by
  refine ⟨h.accumulator, ?_, ?_⟩
  · intro y j hy
    by_cases hxy : y = x
    · subst hxy
      obtain rfl := Option.some.inj (hx.symm.trans hy)
      simp
    · have hij : (j : Int) ≠ i := by
        intro hji
        obtain rfl := Int.ofNat.inj hji
        exact hxy (hnumbered.injective hy hx)
      simpa [Function.update_of_ne hij, Function.update_of_ne hxy] using h.placed y j hy
  · intro y hy
    have hxy : y ≠ x := by
      rintro rfl
      rw [hx] at hy
      cases hy
    simpa [Function.update_of_ne hxy] using h.unplaced y hy

/-- A state shows one situation at most. -/
lemma unique (h : m.Shows c base s) (h' : m.Shows c base s') : s = s' := by
  obtain ⟨store, value⟩ := s
  obtain ⟨store', value'⟩ := s'
  have hvalue : value = value' := h.accumulator.symm.trans h'.accumulator
  have hstore : store = store' := by
    funext x
    cases hx : c.slots.get? x with
    | none => exact (h.unplaced x hx).trans (h'.unplaced x hx).symm
    | some i => exact (h.placed x i hx).symm.trans (h'.placed x i hx)
  rw [hvalue, hstore]

end Machine.Shows

open Machine

variable {arith : Op → Int → Int → Int} {p : Program} {c : Code} {base : String → Int}

/-! ### From meaning to runs -/

/-- Running the code of a part leads from every state that shows the first situation to one that
shows the second. The code of an expression or of arguments is run to its end, and plain expressions
leave the scratch register alone; the code of a body is run until it returns. -/
def Simulated (arith : Op → Int → Int → Int) (p : Program) (c : Code) (base : String → Int) :
    Task → Situation → Situation → Prop
  | .expression e, s, s' => ∀ {b b' : Builder} {m : Machine}, Lowers (.expression e) b b' →
      b'.Within c → e.nodes ⊆ p.nodes → m.pc = b.position → m.Shows c base s →
      ∃ n m', Path arith c m.returns.length n m m' ∧ m'.pc = b'.position ∧
        m'.returns = m.returns ∧ m'.Shows c base s' ∧
        (e.IsPlain → m'.registers 1 = m.registers 1)
  | .arguments es, s, s' => ∀ {position : Nat} {b b' : Builder} {m : Machine},
      Lowers (.arguments position es) b b' → b'.Within c → es.flatMap Node.nodes ⊆ p.nodes →
      m.pc = b.position → m.Shows c base s →
      ∃ n m', Path arith c m.returns.length n m m' ∧ m'.pc = b'.position ∧
        m'.returns = m.returns ∧ m'.Shows c base s'
  | .body ns, s, s' => ∀ {b b' : Builder} {m : Machine} {k : Nat} {ks : List Nat},
      Lowers (.statements ns) b b' → b'.Within c → ns.flatMap Node.nodes ⊆ p.nodes →
      m.pc = b.position → m.returns = k :: ks → m.Shows c base s →
      ∃ n m', Path arith c (ks.length + 1) n m m' ∧ m'.pc = k ∧ m'.returns = ks ∧
        m'.Shows c base s'

namespace Simulated

variable {s s₁ s₂ s₃ : Situation}

lemma constant {value : Binary64} {v : Int} {l : Option Location}
    (hvalue : value.truncate = .ok v) :
    Simulated arith p c base (.expression (.constant value l)) s ⟨s.store, v⟩ := by
  intro b b' m hlowers hwithin _ hpc hshows
  cases hlowers with
  | constant hvalue' =>
    obtain rfl := Except.ok.inj (hvalue.symm.trans hvalue')
    have hinstr := hwithin.getElem?_append
    rw [← hpc] at hinstr
    exact ⟨1, m.load 0 v, .single (step_mov_imm hinstr) le_rfl, by simp [hpc], rfl, hshows.load v,
      fun _ => by simp⟩

lemma symbol {x : String} {l : Option Location} :
    Simulated arith p c base (.expression (.symbol x l)) s ⟨s.store, s.store x⟩ := by
  intro b b' m hlowers hwithin _ hpc hshows
  cases hlowers with
  | symbol =>
    have hinstr := hwithin.getElem?_append
    rw [Builder.position_slotFor, ← hpc] at hinstr
    have hplace := ((Builder.Within.append _ _).trans hwithin).get?_slotFor
    have hvalue := hshows.placed _ _ hplace
    refine ⟨1, m.load 0 (m.slots (b.slotFor x).1), .single (step_mov_slot hinstr) le_rfl, ?_, rfl,
      ?_, fun _ => by simp⟩
    · simp [hpc]
    · rw [← hvalue]
      exact hshows.load _

lemma binary {op : Op} {left right : Node} {l : Option Location} (hp : p.KeepsConvention)
    (hleft : Simulated arith p c base (.expression left) s s₁)
    (hright : Simulated arith p c base (.expression right) s₁ s₂) :
    Simulated arith p c base (.expression (.binary (some op) left right l)) s
      ⟨s₂.store, arith op s₁.accumulator s₂.accumulator⟩ := by
  intro b b' m hlowers hwithin hnodes hpc hshows
  cases hlowers with
  | @binary _ _ _ _ _ b₁ b₂ hlowersLeft hlowersRight =>
    have hplain := hp.plainRight (some op) left right l (hnodes (by simp))
    rw [Node.nodes_binary, List.cons_subset, List.append_subset] at hnodes
    obtain ⟨-, hnodesLeft, hnodesRight⟩ := hnodes
    have hwithin₂ := (Builder.Within.append _ _).trans hwithin
    have hwithin₁ := hlowersRight.within.trans hwithin₂
    obtain ⟨n₁, m₁, hpath₁, hpc₁, hreturns₁, hshows₁, -⟩ :=
      hleft hlowersLeft ((Builder.Within.append _ _).trans hwithin₁) hnodesLeft hpc hshows
    -- the left operand goes to the scratch register, where the right one leaves it alone
    have hpark := hwithin₁.getElem?_append
    rw [← hpc₁] at hpark
    have hshows₂ := hshows₁.load_of_ne (by decide : (1 : Int) ≠ 0) (m₁.registers 0)
    obtain ⟨n₃, m₃, hpath₃, hpc₃, hreturns₃, hshows₃, hscratch⟩ :=
      hright hlowersRight hwithin₂ hnodesRight (by simp [hpc₁]) hshows₂
    rw [returns_load, hreturns₁] at hpath₃ hreturns₃
    have hvalue : m₃.registers 1 = s₁.accumulator := by
      rw [hscratch hplain, registers_load, Function.update_self, hshows₁.accumulator]
    have hinstr := hwithin.getElem?_append
    rw [← hpc₃] at hinstr
    have hpath := (hpath₁.trans (.single (step_mov_reg hpark) (by rw [hreturns₁]))).trans
      (hpath₃.trans (.single (step_binOp hinstr) (by rw [hreturns₃])))
    refine ⟨_, _, hpath, by simp [hpc₃], hreturns₃, ?_, fun h => absurd h Node.not_isPlain_binary⟩
    rw [hvalue, hshows₃.accumulator]
    exact hshows₃.load _

lemma negation {operand : Node} {l : Option Location}
    (hoperand : Simulated arith p c base (.expression operand) s s₁) :
    Simulated arith p c base (.expression (.unary (some .sub) operand l)) s
      ⟨s₁.store, -s₁.accumulator⟩ := by
  intro b b' m hlowers hwithin hnodes hpc hshows
  cases hlowers with
  | negation hlowers =>
    rw [Node.nodes_unary, List.cons_subset] at hnodes
    obtain ⟨n, m₁, hpath, hpc₁, hreturns, hshows₁, hscratch⟩ :=
      hoperand hlowers ((Builder.Within.append _ _).trans hwithin) hnodes.2 hpc hshows
    have hinstr := hwithin.getElem?_append
    rw [← hpc₁] at hinstr
    refine ⟨_, _, hpath.trans (.single (step_unOp hinstr) (by rw [hreturns])), by simp [hpc₁],
      hreturns, ?_, ?_⟩
    · rw [hshows₁.accumulator]
      exact hshows₁.load _
    · intro hplain
      rw [registers_load, Function.update_of_ne (by decide)]
      exact hscratch fun n hn => hplain n (by simp [hn])

lemma call {name : String} {es : List Node} {l : Option Location} {f : Function}
    (hlower : p.lower = .ok c) (harguments : Simulated arith p c base (.arguments es) s s₁)
    (hf : f ∈ p.functions) (hname : f.name = name)
    (hbody : Simulated arith p c base (.body f.body) s₁ s₂) :
    Simulated arith p c base (.expression (.call name es l)) s s₂ := by
  intro b b' m hlowers hwithin hnodes hpc hshows
  subst hname
  cases hlowers with
  | call hlowers =>
    rw [Node.nodes_call, List.cons_subset] at hnodes
    obtain ⟨n₁, m₁, hpath₁, hpc₁, hreturns₁, hshows₁⟩ :=
      harguments hlowers ((Builder.Within.append _ _).trans hwithin) hnodes.2 hpc hshows
    have hinstr := hwithin.getElem?_append
    rw [← hpc₁] at hinstr
    -- the call leads to the place of the function, and its return to the end of the call's code
    obtain ⟨entry, _, hlabel, hlowersBody, hwithinBody⟩ := Program.exists_place hlower hf
    obtain ⟨n₂, m₂, hpath₂, hpc₂, hreturns₂, hshows₂⟩ :=
      hbody (m := m₁.enter entry.position) hlowersBody hwithinBody (Program.nodes_body_subset hf)
        rfl rfl (hshows₁.congr rfl rfl)
    have hpath := Path.step (step_call hinstr hlabel) le_rfl (hpath₂.mono (Nat.le_succ _))
    rw [hreturns₁] at hpath hreturns₂
    exact ⟨_, m₂, hpath₁.trans hpath, by simp [hpc₂, hpc₁], hreturns₂, hshows₂,
      fun h => absurd h Node.not_isPlain_call⟩

lemma noArguments : Simulated arith p c base (.arguments []) s s := by
  intro position b b' m hlowers hwithin _ hpc hshows
  cases hlowers with
  | noArguments => exact ⟨0, m, .refl, hpc, rfl, hshows⟩

lemma argument {e : Node} {es : List Node}
    (hfirst : Simulated arith p c base (.expression e) s s₁)
    (hrest : Simulated arith p c base (.arguments es) s₁ s₂) :
    Simulated arith p c base (.arguments (e :: es)) s s₂ := by
  intro position b b' m hlowers hwithin hnodes hpc hshows
  cases hlowers with
  | argument hlowersFirst hlowersRest =>
    rw [List.flatMap_cons, List.append_subset] at hnodes
    have hwithin₁ := hlowersRest.within.trans hwithin
    obtain ⟨n₁, m₁, hpath₁, hpc₁, hreturns₁, hshows₁, -⟩ :=
      hfirst hlowersFirst ((Builder.Within.append _ _).trans hwithin₁) hnodes.1 hpc hshows
    have hinstr := hwithin₁.getElem?_append
    rw [← hpc₁] at hinstr
    have hregister : (2 + position : Int) ≠ 0 := by omega
    obtain ⟨n₂, m₂, hpath₂, hpc₂, hreturns₂, hshows₂⟩ :=
      hrest hlowersRest hwithin hnodes.2 (by simp [hpc₁])
        (hshows₁.load_of_ne hregister (m₁.registers 0))
    rw [returns_load, hreturns₁] at hpath₂ hreturns₂
    have hpath := hpath₁.trans (Path.step (step_mov_reg hinstr) (by rw [hreturns₁]) hpath₂)
    exact ⟨_, m₂, hpath, hpc₂, hreturns₂, hshows₂⟩

lemma evaluate {e : Node} {l : Option Location} {ns : List Node}
    (hvalue : Simulated arith p c base (.expression e) s s₁)
    (hrest : Simulated arith p c base (.body ns) s₁ s₂) :
    Simulated arith p c base (.body (.evaluate e l :: ns)) s s₂ := by
  intro b b' m k ks hlowers hwithin hnodes hpc hreturns hshows
  cases hlowers with
  | cons hfirst hlowersRest =>
    cases hfirst with
    | evaluate hlowers =>
      rw [List.flatMap_cons, Node.nodes_evaluate, List.append_subset, List.cons_subset] at hnodes
      obtain ⟨n₁, m₁, hpath₁, hpc₁, hreturns₁, hshows₁, -⟩ :=
        hvalue hlowers (hlowersRest.within.trans hwithin) hnodes.1.2 hpc hshows
      rw [hreturns] at hpath₁ hreturns₁
      obtain ⟨n₂, m₂, hpath₂, hend⟩ :=
        hrest hlowersRest hwithin hnodes.2 hpc₁ hreturns₁ hshows₁
      exact ⟨_, m₂, hpath₁.trans hpath₂, hend⟩

lemma assign {x : String} {e : Node} {l : Option Location} {ns : List Node}
    (hnumbered : c.slots.Numbered) (hvalue : Simulated arith p c base (.expression e) s s₁)
    (hrest : Simulated arith p c base (.body ns)
      ⟨Function.update s₁.store x s₁.accumulator, s₁.accumulator⟩ s₂) :
    Simulated arith p c base (.body (.assign x e l :: ns)) s s₂ := by
  intro b b' m k ks hlowers hwithin hnodes hpc hreturns hshows
  cases hlowers with
  | cons hfirst hlowersRest =>
    cases hfirst with
    | @assign _ _ _ _ b₁ hlowers =>
      rw [List.flatMap_cons, Node.nodes_assign, List.append_subset, List.cons_subset] at hnodes
      have hwithin₂ := hlowersRest.within.trans hwithin
      have hwithin₁ := (Builder.Within.append _ _).trans hwithin₂
      obtain ⟨n₁, m₁, hpath₁, hpc₁, hreturns₁, hshows₁, -⟩ :=
        hvalue hlowers ((Builder.Within.slotFor b₁ x).trans hwithin₁) hnodes.1.2 hpc hshows
      rw [hreturns] at hpath₁ hreturns₁
      have hinstr := hwithin₂.getElem?_append
      rw [Builder.position_slotFor, ← hpc₁] at hinstr
      have hshows₂ := hshows₁.store hnumbered hwithin₁.get?_slotFor (m₁.registers 0)
      rw [hshows₁.accumulator] at hshows₂
      obtain ⟨n₂, m₂, hpath₂, hend⟩ :=
        hrest (m := m₁.store (b₁.slotFor x).1 s₁.accumulator) hlowersRest hwithin hnodes.2
          (by simp [hpc₁]) hreturns₁ hshows₂
      have hstep : m₁.step arith c = some _ := step_mov_store hinstr
      rw [hshows₁.accumulator] at hstep
      exact ⟨_, m₂, hpath₁.trans (.step hstep (by rw [hreturns₁]) hpath₂), hend⟩

lemma giveBack {l : Option Location} {ns : List Node} :
    Simulated arith p c base (.body (.giveBack .missing l :: ns)) s s := by
  intro b b' m k ks hlowers hwithin _ hpc hreturns hshows
  cases hlowers with
  | cons hfirst hlowersRest =>
    cases hfirst with
    | giveBack =>
      have hinstr := (hlowersRest.within.trans hwithin).getElem?_append
      rw [← hpc] at hinstr
      exact ⟨1, _, .single (step_ret hinstr hreturns) (by rw [hreturns]; rfl), rfl, rfl,
        hshows.congr rfl rfl⟩
    | giveBackValue hlowers => cases hlowers

lemma giveBackValue {e : Node} {l : Option Location} {ns : List Node} (he : e ≠ .missing)
    (hvalue : Simulated arith p c base (.expression e) s s₁) :
    Simulated arith p c base (.body (.giveBack e l :: ns)) s s₁ := by
  intro b b' m k ks hlowers hwithin hnodes hpc hreturns hshows
  cases hlowers with
  | cons hfirst hlowersRest =>
    cases hfirst with
    | giveBack => exact absurd rfl he
    | giveBackValue hlowers =>
      rw [List.flatMap_cons, Node.nodes_giveBack, List.append_subset, List.cons_subset] at hnodes
      have hwithin₁ := hlowersRest.within.trans hwithin
      obtain ⟨n₁, m₁, hpath₁, hpc₁, hreturns₁, hshows₁, -⟩ :=
        hvalue hlowers ((Builder.Within.append _ _).trans hwithin₁) hnodes.1.2 hpc hshows
      rw [hreturns] at hpath₁ hreturns₁
      have hinstr := hwithin₁.getElem?_append
      rw [← hpc₁] at hinstr
      exact ⟨_, _, hpath₁.trans (.single (step_ret hinstr hreturns₁) (by rw [hreturns₁])), rfl, rfl,
        hshows₁.congr rfl rfl⟩

/-- The test of a conditional: after the condition, a comparison and a jump lead to the first branch
if the value is not zero, and past it otherwise. -/
lemma test {condition : Node} {b b₁ b₂ b₃ : Builder} {label : String} {m : Machine}
    (hcondition : Simulated arith p c base (.expression condition) s s₁)
    (hlowers : Lowers (.expression condition) b b₁)
    (hlabel : (b₁.append (.cmp (.imm 0) accumulator)).newLabel = (label, b₂))
    (hjump : (b₂.append (.jez (.label label))).Within c)
    (hmark : c.labels.get? label = some (b₃.position : Int)) (hnodes : condition.nodes ⊆ p.nodes)
    (hpc : m.pc = b.position) (hshows : m.Shows c base s) :
    ∃ n m', Path arith c m.returns.length n m m' ∧ m'.returns = m.returns ∧
      m'.Shows c base s₁ ∧
      m'.pc = if s₁.accumulator = 0 then b₃.position
        else (b₂.append (.jez (.label label))).position := by
  have hposition := Builder.position_of_newLabel hlabel
  have hwithin := (Builder.Within.newLabel hlabel).trans ((Builder.Within.append _ _).trans hjump)
  obtain ⟨n, m₁, hpath, hpc₁, hreturns, hshows₁, -⟩ :=
    hcondition hlowers ((Builder.Within.append _ _).trans hwithin) hnodes hpc hshows
  have hcmp := hwithin.getElem?_append
  rw [← hpc₁] at hcmp
  have hjez := hjump.getElem?_append
  rw [hposition, Builder.position_append, ← hpc₁] at hjez
  have hstep₁ : m₁.step arith c = some _ := step_cmp hcmp
  have hstep₂ : Machine.step arith c { m₁ with pc := m₁.pc + 1, zero := m₁.registers 0 == 0 } =
      some _ := step_jez hjez hmark
  have htest := Path.step hstep₁ le_rfl (.single hstep₂ le_rfl)
  rw [hreturns] at htest
  refine ⟨_, _, hpath.trans htest, rfl, hshows₁.congr rfl rfl, ?_⟩
  simp [hshows₁.accumulator, hpc₁, hposition]

lemma conditionalTrue {condition thenBranch elseBranch : Node} {l : Option Location}
    {ns : List Node} (hp : p.KeepsConvention)
    (hcondition : Simulated arith p c base (.expression condition) s s₁)
    (htrue : s₁.accumulator ≠ 0)
    (hthen : Simulated arith p c base (.expression thenBranch) s₁ s₂)
    (hrest : Simulated arith p c base (.body ns) s₂ s₃) :
    Simulated arith p c base (.body (.conditional condition thenBranch elseBranch l :: ns)) s
      s₃ := by
  intro b b' m k ks hlowers hwithin hnodes hpc hreturns hshows
  obtain rfl := hp.noElse condition thenBranch elseBranch l (hnodes (by simp))
  rw [List.flatMap_cons, Node.nodes_conditional, List.append_subset, List.cons_subset,
    List.append_subset, List.append_subset] at hnodes
  obtain ⟨⟨-, ⟨hnodesCondition, hnodesThen⟩, -⟩, hnodesRest⟩ := hnodes
  cases hlowers with
  | cons hfirst hlowersRest =>
    cases hfirst with
    | conditional hlowersCondition hlabel hlowersThen hfree =>
      have hwithin₃ := hlowersRest.within.trans hwithin
      have hwithinThen := (Builder.Within.mark _ _).trans hwithin₃
      obtain ⟨n₁, m₁, hpath₁, hreturns₁, hshows₁, hpc₁⟩ :=
        hcondition.test hlowersCondition hlabel (hlowersThen.within.trans hwithinThen)
          (hwithin₃.get?_mark hfree) hnodesCondition hpc hshows
      rw [if_neg htrue] at hpc₁
      obtain ⟨n₂, m₂, hpath₂, hpc₂, hreturns₂, hshows₂, -⟩ :=
        hthen hlowersThen hwithinThen hnodesThen hpc₁ hshows₁
      rw [hreturns] at hpath₁ hreturns₁
      rw [hreturns₁] at hpath₂ hreturns₂
      obtain ⟨n₃, m₃, hpath₃, hend⟩ :=
        hrest hlowersRest hwithin hnodesRest hpc₂ hreturns₂ hshows₂
      exact ⟨_, m₃, (hpath₁.trans hpath₂).trans hpath₃, hend⟩
    | conditionalElse _ _ _ _ helse => cases helse

lemma conditionalFalse {condition thenBranch : Node} {l : Option Location} {ns : List Node}
    (hcondition : Simulated arith p c base (.expression condition) s s₁)
    (hfalse : s₁.accumulator = 0) (hrest : Simulated arith p c base (.body ns) s₁ s₂) :
    Simulated arith p c base (.body (.conditional condition thenBranch .missing l :: ns)) s
      s₂ := by
  intro b b' m k ks hlowers hwithin hnodes hpc hreturns hshows
  rw [List.flatMap_cons, Node.nodes_conditional, List.append_subset, List.cons_subset,
    List.append_subset, List.append_subset] at hnodes
  obtain ⟨⟨-, ⟨hnodesCondition, -⟩, -⟩, hnodesRest⟩ := hnodes
  cases hlowers with
  | cons hfirst hlowersRest =>
    cases hfirst with
    | conditional hlowersCondition hlabel hlowersThen hfree =>
      have hwithin₃ := hlowersRest.within.trans hwithin
      have hwithinThen := (Builder.Within.mark _ _).trans hwithin₃
      obtain ⟨n₁, m₁, hpath₁, hreturns₁, hshows₁, hpc₁⟩ :=
        hcondition.test hlowersCondition hlabel (hlowersThen.within.trans hwithinThen)
          (hwithin₃.get?_mark hfree) hnodesCondition hpc hshows
      rw [if_pos hfalse] at hpc₁
      rw [hreturns] at hpath₁ hreturns₁
      obtain ⟨n₂, m₂, hpath₂, hend⟩ :=
        hrest hlowersRest hwithin hnodesRest hpc₁ hreturns₁ hshows₁
      exact ⟨_, m₂, hpath₁.trans hpath₂, hend⟩
    | conditionalElse _ _ _ _ helse => cases helse

end Simulated

/-- Whatever a part of a program means, its code does. -/
theorem Means.simulated (hlower : p.lower = .ok c) (hp : p.KeepsConvention) {t : Task}
    {s s' : Situation} (h : Means arith p t s s') : Simulated arith p c base t s s' := by
  induction h with
  | constant hvalue => exact Simulated.constant hvalue
  | symbol => exact Simulated.symbol
  | binary _ _ ihleft ihright => exact Simulated.binary hp ihleft ihright
  | negation _ ih => exact Simulated.negation ih
  | call _ hf hname _ iharguments ihbody =>
    exact Simulated.call hlower iharguments hf hname ihbody
  | noArguments => exact Simulated.noArguments
  | argument _ _ ihfirst ihrest => exact Simulated.argument ihfirst ihrest
  | evaluate _ _ ihvalue ihrest => exact Simulated.evaluate ihvalue ihrest
  | assign _ _ ihvalue ihrest =>
    exact Simulated.assign (Program.numbered_of_lower hlower) ihvalue ihrest
  | giveBack => exact Simulated.giveBack
  | giveBackValue hvalue ih =>
    refine Simulated.giveBackValue ?_ ih
    rintro rfl
    cases hvalue
  | conditionalTrue _ htrue _ _ ihcondition ihthen ihrest =>
    exact Simulated.conditionalTrue hp ihcondition htrue ihthen ihrest
  | conditionalFalse _ hfalse _ ihcondition ihrest =>
    exact Simulated.conditionalFalse ihcondition hfalse ihrest
  | @conditionalElse condition thenBranch elseBranch l _ _ _ _ _ _ _ helse _ _ _ _ =>
    intro b b' m k ks _ _ hnodes _ _ _
    obtain rfl := hp.noElse condition thenBranch elseBranch l (hnodes (by simp))
    cases helse

/-! ### From runs to meaning -/

/-- The functions of a program mean something whenever their code gets back to the caller in at most
so many steps. -/
def BodiesRecovered (arith : Op → Int → Int → Int) (p : Program) (c : Code) (base : String → Int)
    (n : Nat) : Prop :=
  ∀ {f : Function} {b b' : Builder} {m : Machine} {s : Situation} {k : Nat} {ks : List Nat}
    {floor : Nat}, f ∈ p.functions → Lowers (.statements f.body) b b' → b'.Within c →
    m.pc = b.position → m.returns = k :: ks → m.Shows c base s → floor ≤ ks.length + 1 →
    Escapes arith c floor n m → ∃ s', Means arith p (.body f.body) s s'

/-- An expression or a row of arguments means something if its code, and what follows it, gets back
to the caller in at most `n` steps. -/
def Recovered (arith : Op → Int → Int → Int) (p : Program) (c : Code) (base : String → Int)
    (n : Nat) : Part → Builder → Builder → Prop
  | .expression e, b, b' => ∀ {m : Machine} {s : Situation} {floor k : Nat}, b'.Within c →
      e.nodes ⊆ p.nodes → m.pc = b.position → m.Shows c base s → floor ≤ m.returns.length →
      k ≤ n → Escapes arith c floor k m → ∃ s', Means arith p (.expression e) s s'
  | .arguments _ es, b, b' => ∀ {m : Machine} {s : Situation} {floor k : Nat}, b'.Within c →
      es.flatMap Node.nodes ⊆ p.nodes → m.pc = b.position → m.Shows c base s →
      floor ≤ m.returns.length → k ≤ n → Escapes arith c floor k m →
      ∃ s', Means arith p (.arguments es) s s'
  | .statement _, _, _ | .statements _, _, _ => True

namespace Recovered

variable {n : Nat} {b b₁ b₂ : Builder}

lemma binary {op : Option Op} {left right : Node} {l : Option Location}
    (hlower : p.lower = .ok c) (hp : p.KeepsConvention)
    (hleft : Lowers (.expression left) b b₁)
    (hright : Lowers (.expression right) (b₁.append (.mov accumulator scratch)) b₂)
    (ihleft : Recovered arith p c base n (.expression left) b b₁)
    (ihright : Recovered arith p c base n (.expression right)
      (b₁.append (.mov accumulator scratch)) b₂) :
    Recovered arith p c base n (.expression (.binary op left right l)) b
      (b₂.append (.binOp scratch op accumulator)) := by
  intro m s floor k hwithin hnodes hpc hshows hfloor hk hescapes
  rw [Node.nodes_binary, List.cons_subset, List.append_subset] at hnodes
  obtain ⟨-, hnodesLeft, hnodesRight⟩ := hnodes
  have hwithin₂ := (Builder.Within.append _ _).trans hwithin
  have hwithin₁ := hright.within.trans hwithin₂
  have hwithinLeft := (Builder.Within.append _ _).trans hwithin₁
  obtain ⟨s₁, hmeans₁⟩ := ihleft hwithinLeft hnodesLeft hpc hshows hfloor hk hescapes
  obtain ⟨k₁, m₁, hpath₁, hpc₁, hreturns₁, hshows₁, -⟩ :=
    hmeans₁.simulated hlower hp hleft hwithinLeft hnodesLeft hpc hshows
  have hpark := hwithin₁.getElem?_append
  rw [← hpc₁] at hpark
  obtain ⟨k₂, hk₂, hescapes₂⟩ := hescapes.after
    (hpath₁.trans (.single (step_mov_reg hpark) (by rw [hreturns₁]))) hfloor
  have hshows₂ := hshows₁.load_of_ne (by decide : (1 : Int) ≠ 0) (m₁.registers 0)
  have hfloor₂ : floor ≤ (m₁.load 1 (m₁.registers 0)).returns.length := by
    rwa [returns_load, hreturns₁]
  obtain ⟨s₂, hmeans₂⟩ := ihright hwithin₂ hnodesRight (by simp [hpc₁]) hshows₂ hfloor₂
    (by omega) hescapes₂
  cases op with
  | some op => exact ⟨_, .binary hmeans₁ hmeans₂⟩
  | none =>
    -- without an operator the machine stops after the right operand
    exfalso
    obtain ⟨k₃, m₃, hpath₃, hpc₃, hreturns₃, -, -⟩ :=
      hmeans₂.simulated hlower hp hright hwithin₂ hnodesRight (by simp [hpc₁]) hshows₂
    obtain ⟨k₄, -, hescapes₃⟩ := hescapes₂.after hpath₃ hfloor₂
    have hinstr := hwithin.getElem?_append
    rw [← hpc₃] at hinstr
    obtain ⟨-, m₄, -, hstep, -⟩ := hescapes₃.exists_step (by rwa [hreturns₃])
    rw [step_binOp_none hinstr] at hstep
    cases hstep

lemma negation {operand : Node} {l : Option Location}
    (ih : Recovered arith p c base n (.expression operand) b b₁) :
    Recovered arith p c base n (.expression (.unary (some .sub) operand l)) b
      (b₁.append (.unOp .sub accumulator)) := by
  intro m s floor k hwithin hnodes hpc hshows hfloor hk hescapes
  rw [Node.nodes_unary, List.cons_subset] at hnodes
  obtain ⟨s₁, hmeans⟩ := ih ((Builder.Within.append _ _).trans hwithin) hnodes.2 hpc hshows
    hfloor hk hescapes
  exact ⟨_, .negation hmeans⟩

/-- The call itself is a step, so that the body of the function has fewer steps left. -/
lemma call {name : String} {es : List Node} {l : Option Location} (hlower : p.lower = .ok c)
    (hp : p.KeepsConvention) (hbodies : ∀ k < n, BodiesRecovered arith p c base k)
    (harguments : Lowers (.arguments 0 es) b b₁)
    (ih : Recovered arith p c base n (.arguments 0 es) b b₁) :
    Recovered arith p c base n (.expression (.call name es l)) b
      (b₁.append (.call (.label name))) := by
  intro m s floor k hwithin hnodes hpc hshows hfloor hk hescapes
  obtain ⟨f, hf, rfl⟩ := hp.declared name es l (hnodes (by simp))
  rw [Node.nodes_call, List.cons_subset] at hnodes
  have hwithin₁ := (Builder.Within.append _ _).trans hwithin
  obtain ⟨s₁, hmeans₁⟩ := ih hwithin₁ hnodes.2 hpc hshows hfloor hk hescapes
  obtain ⟨k₁, m₁, hpath₁, hpc₁, hreturns₁, hshows₁⟩ :=
    hmeans₁.simulated hlower hp harguments hwithin₁ hnodes.2 hpc hshows
  have hinstr := hwithin.getElem?_append
  rw [← hpc₁] at hinstr
  obtain ⟨entry, _, hlabel, hlowersBody, hwithinBody⟩ := Program.exists_place hlower hf
  obtain ⟨k₂, hk₂, hescapes₂⟩ := hescapes.after
    (hpath₁.trans (.single (step_call hinstr hlabel) (by rw [hreturns₁]))) hfloor
  have hfloor₁ : floor ≤ m₁.returns.length + 1 := by
    rw [hreturns₁]
    omega
  obtain ⟨s₂, hmeans₂⟩ := hbodies k₂ (by omega) (m := m₁.enter entry.position) hf hlowersBody
    hwithinBody rfl rfl (hshows₁.congr rfl rfl) hfloor₁ hescapes₂
  exact ⟨s₂, .call hmeans₁ hf rfl hmeans₂⟩

lemma argument {position : Nat} {e : Node} {es : List Node} (hlower : p.lower = .ok c)
    (hp : p.KeepsConvention) (hfirst : Lowers (.expression e) b b₁)
    (hrest : Lowers (.arguments (position + 1) es)
      (b₁.append (.mov accumulator (argumentRegister position))) b₂)
    (ihfirst : Recovered arith p c base n (.expression e) b b₁)
    (ihrest : Recovered arith p c base n (.arguments (position + 1) es)
      (b₁.append (.mov accumulator (argumentRegister position))) b₂) :
    Recovered arith p c base n (.arguments position (e :: es)) b b₂ := by
  intro m s floor k hwithin hnodes hpc hshows hfloor hk hescapes
  rw [List.flatMap_cons, List.append_subset] at hnodes
  have hwithin₁ := hrest.within.trans hwithin
  have hwithinFirst := (Builder.Within.append _ _).trans hwithin₁
  obtain ⟨s₁, hmeans₁⟩ := ihfirst hwithinFirst hnodes.1 hpc hshows hfloor hk hescapes
  obtain ⟨k₁, m₁, hpath₁, hpc₁, hreturns₁, hshows₁, -⟩ :=
    hmeans₁.simulated hlower hp hfirst hwithinFirst hnodes.1 hpc hshows
  have hinstr := hwithin₁.getElem?_append
  rw [← hpc₁] at hinstr
  obtain ⟨k₂, hk₂, hescapes₂⟩ := hescapes.after
    (hpath₁.trans (.single (step_mov_reg hinstr) (by rw [hreturns₁]))) hfloor
  have hregister : (2 + position : Int) ≠ 0 := by omega
  obtain ⟨s₂, hmeans₂⟩ := ihrest hwithin hnodes.2 (by simp [hpc₁])
    (hshows₁.load_of_ne hregister (m₁.registers 0)) (by rwa [returns_load, hreturns₁])
    (by omega) hescapes₂
  exact ⟨s₂, .argument hmeans₁ hmeans₂⟩

end Recovered

theorem Lowers.recovered (hlower : p.lower = .ok c) (hp : p.KeepsConvention) {n : Nat}
    (hbodies : ∀ k < n, BodiesRecovered arith p c base k) {part : Part} {b b' : Builder}
    (h : Lowers part b b') : Recovered arith p c base n part b b' := by
  induction h with
  | constant hvalue =>
    intro m s floor k _ _ _ _ _ _ _
    exact ⟨_, .constant hvalue⟩
  | symbol =>
    intro m s floor k _ _ _ _ _ _ _
    exact ⟨_, .symbol⟩
  | binary hleft hright ihleft ihright =>
    exact Recovered.binary hlower hp hleft hright ihleft ihright
  | negation _ ih => exact Recovered.negation ih
  | call harguments ih => exact Recovered.call hlower hp hbodies harguments ih
  | noArguments =>
    intro m s floor k _ _ _ _ _ _ _
    exact ⟨s, .noArguments⟩
  | argument hfirst hrest ihfirst ihrest =>
    exact Recovered.argument hlower hp hfirst hrest ihfirst ihrest
  | evaluate | assign | giveBack | giveBackValue | conditional | conditionalElse | noStatements
  | cons => trivial

/-- What a statement leads to if its code, and what follows it, gets back to the caller: either it
is a return, or the machine goes on behind it and shows what the statement has done. -/
lemma Lowers.statement_recovered (hlower : p.lower = .ok c) (hp : p.KeepsConvention) {n : Nat}
    (hbodies : ∀ k < n, BodiesRecovered arith p c base k) {node : Node} {b b' : Builder}
    {m : Machine} {s : Situation} {j floor : Nat} (hlowers : Lowers (.statement node) b b')
    (hwithin : b'.Within c) (hnodes : node.nodes ⊆ p.nodes) (hpc : m.pc = b.position)
    (hshows : m.Shows c base s) (hfloor : floor ≤ m.returns.length) (hj : j ≤ n)
    (hescapes : Escapes arith c floor j m) :
    (∀ ns, ∃ s', Means arith p (.body (node :: ns)) s s') ∨
      (node.kind ≠ .giveBack ∧ ∃ s₁ m₁ k, k ≤ j ∧ Escapes arith c floor k m₁ ∧
        m₁.pc = b'.position ∧ m₁.returns = m.returns ∧ m₁.Shows c base s₁ ∧
        ∀ ns s₂, Means arith p (.body ns) s₁ s₂ → Means arith p (.body (node :: ns)) s s₂) := by
  cases hlowers with
  | evaluate hvalue =>
    right
    rw [Node.nodes_evaluate, List.cons_subset] at hnodes
    obtain ⟨s₁, hmeans⟩ := hvalue.recovered hlower hp hbodies hwithin hnodes.2 hpc hshows hfloor hj
      hescapes
    obtain ⟨k₁, m₁, hpath, hpc₁, hreturns₁, hshows₁, -⟩ :=
      hmeans.simulated hlower hp hvalue hwithin hnodes.2 hpc hshows
    obtain ⟨k₂, hk₂, hescapes₂⟩ := hescapes.after hpath hfloor
    exact ⟨nofun, s₁, m₁, k₂, by omega, hescapes₂, hpc₁, hreturns₁, hshows₁,
      fun _ _ hrest => .evaluate hmeans hrest⟩
  | @assign x e l _ b₁ hvalue =>
    right
    rw [Node.nodes_assign, List.cons_subset] at hnodes
    have hwithin₁ := (Builder.Within.append _ _).trans hwithin
    have hwithinValue := (Builder.Within.slotFor b₁ x).trans hwithin₁
    obtain ⟨s₁, hmeans⟩ := hvalue.recovered hlower hp hbodies hwithinValue hnodes.2 hpc hshows
      hfloor hj hescapes
    obtain ⟨k₁, m₁, hpath, hpc₁, hreturns₁, hshows₁, -⟩ :=
      hmeans.simulated hlower hp hvalue hwithinValue hnodes.2 hpc hshows
    have hinstr := hwithin.getElem?_append
    rw [Builder.position_slotFor, ← hpc₁] at hinstr
    obtain ⟨k₂, hk₂, hescapes₂⟩ := hescapes.after
      (hpath.trans (.single (step_mov_store hinstr) (by rw [hreturns₁]))) hfloor
    have hshows₂ := hshows₁.store (Program.numbered_of_lower hlower) hwithin₁.get?_slotFor
      (m₁.registers 0)
    rw [hshows₁.accumulator] at hshows₂ hescapes₂
    exact ⟨nofun, _, _, k₂, by omega, hescapes₂, by simp [hpc₁], hreturns₁, hshows₂,
      fun _ _ hrest => .assign hmeans hrest⟩
  | giveBack => exact .inl fun _ => ⟨s, .giveBack⟩
  | giveBackValue hvalue =>
    rw [Node.nodes_giveBack, List.cons_subset] at hnodes
    obtain ⟨s₁, hmeans⟩ := hvalue.recovered hlower hp hbodies
      ((Builder.Within.append _ _).trans hwithin) hnodes.2 hpc hshows hfloor hj hescapes
    exact .inl fun _ => ⟨s₁, .giveBackValue hmeans⟩
  | @conditional condition thenBranch l _ b₁ b₂ b₃ label hcondition hlabel hthen hfree =>
    right
    rw [Node.nodes_conditional, List.cons_subset, List.append_subset, List.append_subset] at hnodes
    obtain ⟨-, ⟨hnodesCondition, hnodesThen⟩, -⟩ := hnodes
    have hwithinThen := (Builder.Within.mark _ _).trans hwithin
    have hjump := hthen.within.trans hwithinThen
    have hwithinCondition := (((Builder.Within.append _ _).trans (.newLabel hlabel)).trans
      (.append _ _)).trans hjump
    obtain ⟨s₁, hmeans₁⟩ := hcondition.recovered hlower hp hbodies hwithinCondition
      hnodesCondition hpc hshows hfloor hj hescapes
    obtain ⟨k₁, m₁, hpath₁, hreturns₁, hshows₁, hpc₁⟩ :=
      Simulated.test (hmeans₁.simulated hlower hp) hcondition hlabel hjump
        (hwithin.get?_mark hfree) hnodesCondition hpc hshows
    obtain ⟨k₂, hk₂, hescapes₂⟩ := hescapes.after hpath₁ hfloor
    by_cases hzero : s₁.accumulator = 0
    · rw [if_pos hzero] at hpc₁
      exact ⟨nofun, s₁, m₁, k₂, by omega, hescapes₂, hpc₁, hreturns₁, hshows₁,
        fun _ _ hrest => .conditionalFalse hmeans₁ hzero hrest⟩
    · rw [if_neg hzero] at hpc₁
      have hfloor₁ : floor ≤ m₁.returns.length := by rwa [hreturns₁]
      obtain ⟨s₂, hmeans₂⟩ := hthen.recovered hlower hp hbodies hwithinThen hnodesThen hpc₁ hshows₁
        hfloor₁ (by omega) hescapes₂
      obtain ⟨k₃, m₂, hpath₂, hpc₂, hreturns₂, hshows₂, -⟩ :=
        hmeans₂.simulated hlower hp hthen hwithinThen hnodesThen hpc₁ hshows₁
      obtain ⟨k₄, hk₄, hescapes₄⟩ := hescapes₂.after hpath₂ hfloor₁
      exact ⟨nofun, s₂, m₂, k₄, by omega, hescapes₄, hpc₂, hreturns₂.trans hreturns₁, hshows₂,
        fun _ _ hrest => .conditionalTrue hmeans₁ hzero hmeans₂ hrest⟩
  | @conditionalElse condition thenBranch elseBranch l _ _ _ _ _ _ _ _ _ _ helse =>
    obtain rfl := hp.noElse condition thenBranch elseBranch l (hnodes (by simp))
    cases helse

/-- If a row of statements ends with a return and does not begin with it, then what follows the
first statement ends with it. -/
lemma getLast?_of_cons {n value : Node} {ns : List Node} {l : Option Location}
    (h : (n :: ns).getLast? = some (.giveBack value l)) (hn : n.kind ≠ .giveBack) :
    ns.getLast? = some (.giveBack value l) := by
  cases ns with
  | nil =>
    obtain rfl := Option.some.inj h
    exact absurd rfl hn
  | cons m ns => rwa [List.getLast?_cons_cons] at h

/-- Statements that end with a return mean something if their code gets back to the caller. -/
lemma Lowers.statements_recovered (hlower : p.lower = .ok c) (hp : p.KeepsConvention) {n : Nat}
    (hbodies : ∀ k < n, BodiesRecovered arith p c base k) {ns : List Node} {b b' : Builder}
    {m : Machine} {s : Situation} {j floor : Nat} {value : Node} {l : Option Location}
    (hlowers : Lowers (.statements ns) b b') (hlast : ns.getLast? = some (.giveBack value l))
    (hwithin : b'.Within c) (hnodes : ns.flatMap Node.nodes ⊆ p.nodes) (hpc : m.pc = b.position)
    (hshows : m.Shows c base s) (hfloor : floor ≤ m.returns.length) (hj : j ≤ n)
    (hescapes : Escapes arith c floor j m) : ∃ s', Means arith p (.body ns) s s' := by
  induction ns generalizing b m s j with
  | nil => cases hlast
  | cons node ns ih =>
    rw [List.flatMap_cons, List.append_subset] at hnodes
    cases hlowers with
    | cons hfirst hrest =>
      rcases hfirst.statement_recovered hlower hp hbodies (hrest.within.trans hwithin) hnodes.1 hpc
        hshows hfloor hj hescapes with hreturn | ⟨hkind, s₁, m₁, k, hk, hescapes₁, hpc₁, hreturns₁,
          hshows₁, hmeans⟩
      · exact hreturn ns
      · obtain ⟨s₂, hmeans₂⟩ := ih hrest (getLast?_of_cons hlast hkind) hnodes.2 hpc₁ hshows₁
          (by rwa [hreturns₁]) (by omega) hescapes₁
        exact ⟨s₂, hmeans ns s₂ hmeans₂⟩

/-- By induction on the number of steps: all functions mean something whenever their code gets back
to the caller. -/
theorem bodiesRecovered (hlower : p.lower = .ok c) (hp : p.KeepsConvention) (n : Nat) :
    BodiesRecovered arith p c base n := by
  induction n using Nat.strong_induction_on with
  | _ n ih =>
    intro f b b' m s k ks floor hf hlowers hwithin hpc hreturns hshows hfloor hescapes
    obtain ⟨value, l, hlast⟩ := hp.returns f hf
    exact hlowers.statements_recovered hlower hp ih hlast hwithin (Program.nodes_body_subset hf) hpc
      hshows (by rwa [hreturns]) le_rfl hescapes

/-! ### The code of a program and its meaning -/

/-- Code computes what the program says: if the machine enters a function at its label, it returns
to the caller exactly if the function leads from the situation shown before to another one, and then
it shows that one. -/
theorem returns_iff_means (arith : Op → Int → Int → Int) (hlower : p.lower = .ok c)
    (hp : p.KeepsConvention) {f : Function} (hf : f ∈ p.functions) :
    ∃ entry : Nat, c.labels.get? f.name = some (entry : Int) ∧
      ∀ (s s' : Situation) (m : Machine) (k : Nat) (ks : List Nat), m.pc = entry →
        m.returns = k :: ks → m.Shows c s.store s →
        (Means arith p (.body f.body) s s' ↔
          ∃ n m', Path arith c (ks.length + 1) n m m' ∧ m'.pc = k ∧ m'.returns = ks ∧
            m'.Shows c s.store s') := by
  obtain ⟨b, b', hlabel, hlowers, hwithin⟩ := Program.exists_place hlower hf
  refine ⟨b.position, hlabel, ?_⟩
  intro s s' m k ks hpc hreturns hshows
  constructor
  · intro hmeans
    exact hmeans.simulated hlower hp hlowers hwithin (Program.nodes_body_subset hf) hpc hreturns
      hshows
  · rintro ⟨n, m', hpath, -, hreturns', hshows'⟩
    have hbelow : m'.returns.length < ks.length + 1 := by
      rw [hreturns']
      omega
    obtain ⟨s₁, hmeans⟩ := bodiesRecovered hlower hp n hf hlowers hwithin hpc hreturns hshows le_rfl
      ⟨m', hpath, hbelow⟩
    -- the run of this meaning is the run at hand, so both situations are shown by its last state
    obtain ⟨n₁, m₁, hpath₁, -, hreturns₁, hshows₁⟩ := hmeans.simulated hlower hp hlowers hwithin
      (Program.nodes_body_subset hf) hpc hreturns hshows
    obtain rfl := hpath.unique hpath₁ hbelow (by rw [hreturns₁]; omega)
    rwa [hshows'.unique hshows₁]

/-- The operators on whole numbers. -/
def Op.onIntegers : Op → Int → Int → Int
  | .add => (· + ·)
  | .sub => (· - ·)
  | .mul => (· * ·)
  | .div => (· / ·)

/-- The function `fun f() { let y = x + 1; return; }`. -/
def Function.increase : Function where
  name := "f"
  body := [.assign "y" (.binary (some .add) (.symbol "x" none) (.constant (.finite false 1 0) none)
    none) none, .giveBack .missing none]
  location := none

/-- The function `fun main() { if (x) f(); return f(y) - x; }`. -/
def Function.callTwice : Function where
  name := "main"
  body := [.conditional (.symbol "x" none) (.call "f" [] none) .missing none,
    .giveBack (.binary (some .sub) (.call "f" [.symbol "y" none] none) (.symbol "x" none) none)
      none]
  location := none

/-- A program in which a function is called in a branch, with an argument and before an operator. -/
def Program.twice : Program := ⟨[.increase, .callTwice]⟩

lemma Program.twice_keepsConvention : Program.twice.KeepsConvention := by
  refine ⟨?_, ?_, ?_, ?_⟩
  · intro name es l h
    simp [Program.nodes, toNode, Function.toNode, twice, Function.increase,
      Function.callTwice] at h ⊢
    rcases h with h | h <;> simp [h]
  · intro op left right l h
    simp [Program.nodes, toNode, Function.toNode, twice, Function.increase,
      Function.callTwice] at h
    rcases h with h | h <;> simp [h, Node.IsPlain, Node.kind]
  · intro condition thenBranch elseBranch l h
    simp [Program.nodes, toNode, Function.toNode, twice, Function.increase,
      Function.callTwice] at h
    simp [h]
  · intro f hf
    simp [twice, Function.increase, Function.callTwice] at hf
    rcases hf with rfl | rfl <;> simp

lemma means_increase (s : Situation) :
    Means Op.onIntegers .twice (.body Function.increase.body) s
      ⟨Function.update s.store "y" (s.store "x" + 1), s.store "x" + 1⟩ :=
  .assign (.binary .symbol (.constant rfl)) .giveBack

lemma means_callTwice : ∃ store, Means Op.onIntegers .twice (.body Function.callTwice.body)
    ⟨fun _ => 2, 2⟩ ⟨store, 1⟩ := by
  have hmem : Function.increase ∈ Program.twice.functions := List.mem_cons_self
  have hbranch (s : Situation) : Means Op.onIntegers .twice (.expression (.call "f" [] none)) s _ :=
    .call .noArguments hmem rfl (means_increase s)
  have hvalue (s : Situation) : Means Op.onIntegers .twice
      (.expression (.call "f" [.symbol "y" none] none)) s _ :=
    .call (.argument .symbol .noArguments) hmem rfl (means_increase _)
  exact ⟨_, .conditionalTrue .symbol (by decide) (hbranch _)
    (.giveBackValue (.binary (hvalue _) .symbol))⟩

theorem returns_iff_means_twice :
    ∃ (c : Code) (entry : Nat) (m' : Machine), Program.twice.lower = .ok c ∧
      Program.twice.KeepsConvention ∧ c.labels.get? "main" = some (entry : Int) ∧
      (∃ n, Path Op.onIntegers c 1 n
        ⟨entry, fun _ => 2, fun _ => 2, fun _ => 0, false, [7]⟩ m') ∧
      m'.pc = 7 ∧ m'.returns = [] ∧ m'.registers 0 = 1 := by
  have hlower : Program.twice.lower = .ok _ := rfl
  have hmem : Function.callTwice ∈ Program.twice.functions :=
    List.mem_cons_of_mem _ List.mem_cons_self
  obtain ⟨entry, hentry, hiff⟩ :=
    returns_iff_means Op.onIntegers hlower Program.twice_keepsConvention hmem
  obtain ⟨store, hmeans⟩ := means_callTwice
  obtain ⟨n, m', hpath, hpc, hreturns, hshows⟩ := (hiff ⟨fun _ => 2, 2⟩ ⟨store, 1⟩
    ⟨entry, fun _ => 2, fun _ => 2, fun _ => 0, false, [7]⟩ 7 [] rfl rfl
    ⟨rfl, fun _ _ _ => rfl, fun _ _ => rfl⟩).mp hmeans
  exact ⟨_, entry, m', hlower, Program.twice_keepsConvention, hentry, ⟨n, hpath⟩, hpc, hreturns,
    hshows.accumulator⟩

end TinyCompiler
