import TinyCompiler.Program.Lowering
import TinyCompiler.Proofs.Builder

/-!
# What lowering adds

The code of a program is made by recursion over its tree, and every call may fail. The relation
`Lowers` says the same without the failures: it relates a part of a program to the builders before
and after its code was added, with one rule for every sort of node. Everything that is to be known
of code is proved by induction over this relation, and the functions themselves are opened only here
(`lowers_of_lowerExpression`, `lowers_of_lowerStatement`, `lower_eq_ok_iff`). What does not depend on
the program follows from the operations of the builder alone (`Builder.HoldsAlong`).
-/

namespace TinyCompiler

/-- A computation with a second part succeeds if both parts do. -/
lemma bind_eq_ok_iff {ε α β : Type} {x : Except ε α} {f : α → Except ε β} {r : β} :
    x >>= f = .ok r ↔ ∃ a, x = .ok a ∧ f a = .ok r := by
  cases x with
  | error e => simp [bind, Except.bind]
  | ok a => simp [bind, Except.bind]

/-- A part of a function for which code is made. -/
inductive Part where
  | expression (e : Node)
  /-- Arguments of a call, the first of which has the given position. -/
  | arguments (position : Nat) (es : List Node)
  | statement (n : Node)
  | statements (ns : List Node)

/-- The second builder is the first one with the code of a part added. -/
inductive Lowers : Part → Builder → Builder → Prop
  | constant {value : Binary64} {n : Int} {l : Option Location} {b : Builder}
      (hvalue : value.truncate = .ok n) :
      Lowers (.expression (.constant value l)) b (b.append (.mov (.imm n) accumulator))
  | symbol {x : String} {l : Option Location} {b : Builder} :
      Lowers (.expression (.symbol x l)) b
        ((b.slotFor x).2.append (.mov (.slot (b.slotFor x).1) accumulator))
  | binary {op : Option Op} {left right : Node} {l : Option Location} {b b₁ b₂ : Builder}
      (hleft : Lowers (.expression left) b b₁)
      (hright : Lowers (.expression right) (b₁.append (.mov accumulator scratch)) b₂) :
      Lowers (.expression (.binary op left right l)) b
        (b₂.append (.binOp scratch op accumulator))
  | negation {operand : Node} {l : Option Location} {b b₁ : Builder}
      (hoperand : Lowers (.expression operand) b b₁) :
      Lowers (.expression (.unary (some .sub) operand l)) b
        (b₁.append (.unOp .sub accumulator))
  | call {name : String} {es : List Node} {l : Option Location} {b b₁ : Builder}
      (harguments : Lowers (.arguments 0 es) b b₁) :
      Lowers (.expression (.call name es l)) b (b₁.append (.call (.label name)))
  | noArguments {position : Nat} {b : Builder} : Lowers (.arguments position []) b b
  | argument {position : Nat} {e : Node} {es : List Node} {b b₁ b₂ : Builder}
      (hfirst : Lowers (.expression e) b b₁)
      (hrest : Lowers (.arguments (position + 1) es)
        (b₁.append (.mov accumulator (argumentRegister position))) b₂) :
      Lowers (.arguments position (e :: es)) b b₂
  | evaluate {e : Node} {l : Option Location} {b b₁ : Builder}
      (hvalue : Lowers (.expression e) b b₁) : Lowers (.statement (.evaluate e l)) b b₁
  | assign {x : String} {e : Node} {l : Option Location} {b b₁ : Builder}
      (hvalue : Lowers (.expression e) b b₁) :
      Lowers (.statement (.assign x e l)) b
        ((b₁.slotFor x).2.append (.mov accumulator (.slot (b₁.slotFor x).1)))
  | giveBack {l : Option Location} {b : Builder} :
      Lowers (.statement (.giveBack .missing l)) b (b.append .ret)
  | giveBackValue {e : Node} {l : Option Location} {b b₁ : Builder}
      (hvalue : Lowers (.expression e) b b₁) :
      Lowers (.statement (.giveBack e l)) b (b₁.append .ret)
  | conditional {condition thenBranch : Node} {l : Option Location} {b b₁ b₂ b₃ : Builder}
      {label : String}
      (hcondition : Lowers (.expression condition) b b₁)
      (hlabel : (b₁.append (.cmp (.imm 0) accumulator)).newLabel = (label, b₂))
      (hthen : Lowers (.expression thenBranch) (b₂.append (.jez (.label label))) b₃)
      (hfree : b₃.labels.get? label = none) :
      Lowers (.statement (.conditional condition thenBranch .missing l)) b (b₃.mark label)
  | conditionalElse {condition thenBranch elseBranch : Node} {l : Option Location}
      {b b₁ b₂ b₃ b₄ : Builder} {label : String}
      (hcondition : Lowers (.expression condition) b b₁)
      (hlabel : (b₁.append (.cmp (.imm 0) accumulator)).newLabel = (label, b₂))
      (hthen : Lowers (.expression thenBranch) (b₂.append (.jez (.label label))) b₃)
      (hfree : b₃.labels.get? label = none)
      (helse : Lowers (.expression elseBranch) (b₃.mark label) b₄) :
      Lowers (.statement (.conditional condition thenBranch elseBranch l)) b b₄
  | noStatements {b : Builder} : Lowers (.statements []) b b
  | cons {n : Node} {ns : List Node} {b b₁ b₂ : Builder}
      (hfirst : Lowers (.statement n) b b₁) (hrest : Lowers (.statements ns) b₁ b₂) :
      Lowers (.statements (n :: ns)) b b₂

/-! ### The functions and the relation agree -/

namespace Node

mutual

theorem lowers_of_lowerExpression : (e : Node) → {b b' : Builder} →
    e.lowerExpression b = .ok b' → Lowers (.expression e) b b'
  | .constant value l, b, b', h => by
    simp only [lowerExpression, bind_eq_ok_iff] at h
    obtain ⟨n, hn, h⟩ := h
    obtain rfl := Except.ok.inj h
    exact .constant hn
  | .symbol x l, b, b', h => by
    simp only [lowerExpression] at h
    obtain rfl := Except.ok.inj h
    exact .symbol
  | .binary op left right l, b, b', h => by
    simp only [lowerExpression, bind_eq_ok_iff] at h
    obtain ⟨b₁, h₁, b₂, h₂, h⟩ := h
    obtain rfl := Except.ok.inj h
    exact .binary (lowers_of_lowerExpression left h₁) (lowers_of_lowerExpression right h₂)
  | .unary (some .sub) operand l, b, b', h => by
    simp only [lowerExpression, bind_eq_ok_iff] at h
    obtain ⟨b₁, h₁, h⟩ := h
    obtain rfl := Except.ok.inj h
    exact .negation (lowers_of_lowerExpression operand h₁)
  | .call name es l, b, b', h => by
    simp only [lowerExpression, bind_eq_ok_iff] at h
    obtain ⟨b₁, h₁, h⟩ := h
    obtain rfl := Except.ok.inj h
    exact .call (lowers_of_lowerArguments es h₁)
  | .unary none _ _, _, _, h | .unary (some .add) _ _, _, _, h | .unary (some .mul) _ _, _, _, h
  | .unary (some .div) _ _, _, _, h | .missing, _, _, h | .program _ _, _, _, h
  | .function _ _ _, _, _, h | .bareStatement _, _, _, h | .evaluate _ _, _, _, h
  | .assign _ _ _, _, _, h | .giveBack _ _, _, _, h | .conditional _ _ _ _, _, _, h
  | .bareExpression _, _, _, h | .rowless .program _, _, _, h
  | .rowless (.function _) _, _, _, h | .rowless (.call _) _, _, _, h => by
    simp [lowerExpression] at h

theorem lowers_of_lowerArguments : (es : List Node) → {position : Nat} → {b b' : Builder} →
    lowerArguments position es b = .ok b' → Lowers (.arguments position es) b b'
  | [], _, b, b', h => by
    simp only [lowerArguments] at h
    obtain rfl := Except.ok.inj h
    exact .noArguments
  | e :: es, _, b, b', h => by
    simp only [lowerArguments, bind_eq_ok_iff] at h
    obtain ⟨b₁, h₁, h₂⟩ := h
    exact .argument (lowers_of_lowerExpression e h₁) (lowers_of_lowerArguments es h₂)

end

theorem lowers_of_lowerStatement {n : Node} {b b' : Builder} (h : lowerStatement b n = .ok b') :
    Lowers (.statement n) b b' := by
  cases n with
  | evaluate e l => exact .evaluate (lowers_of_lowerExpression e h)
  | assign x e l =>
    simp only [lowerStatement, bind_eq_ok_iff] at h
    obtain ⟨b₁, h₁, h⟩ := h
    obtain rfl := Except.ok.inj h
    exact .assign (lowers_of_lowerExpression e h₁)
  | giveBack value l =>
    cases value with
    | missing =>
      obtain rfl := Except.ok.inj h
      exact .giveBack
    | _ =>
      obtain ⟨b₁, h₁, h⟩ := bind_eq_ok_iff.mp h
      obtain rfl := Except.ok.inj h
      exact .giveBackValue (lowers_of_lowerExpression _ h₁)
  | conditional condition thenBranch elseBranch l =>
    simp only [lowerStatement, lowerConditional, bind_eq_ok_iff] at h
    obtain ⟨b₁, h₁, b₃, h₃, ⟨i, b₄⟩, h₄, h⟩ := h
    obtain ⟨hfree, heq⟩ := Builder.bindLabel_eq_ok_iff.mp h₄
    obtain ⟨rfl, rfl⟩ := Prod.mk.inj heq
    have hcondition := lowers_of_lowerExpression condition h₁
    have hthen := lowers_of_lowerExpression thenBranch h₃
    cases elseBranch with
    | missing =>
      obtain rfl := Except.ok.inj h
      exact .conditional hcondition rfl hthen hfree
    | _ => exact .conditionalElse hcondition rfl hthen hfree (lowers_of_lowerExpression _ h)
  | missing | program | function | bareStatement | bareExpression | constant | binary | unary
  | call | symbol | rowless => simp [lowerStatement] at h

theorem lowers_of_foldlM_lowerStatement {ns : List Node} {b b' : Builder}
    (h : ns.foldlM lowerStatement b = .ok b') : Lowers (.statements ns) b b' := by
  induction ns generalizing b with
  | nil =>
    obtain rfl := Except.ok.inj h
    exact .noStatements
  | cons n ns ih =>
    rw [List.foldlM_cons, bind_eq_ok_iff] at h
    obtain ⟨b₁, h₁, h₂⟩ := h
    exact .cons (lowers_of_lowerStatement h₁) (ih h₂)

end Node

/-- A function is lowered by marking its place with its name and lowering its body. -/
theorem Function.lowers_of_lower {f : Function} {b b' : Builder} (h : f.lower b = .ok b') :
    b.labels.get? f.name = none ∧ Lowers (.statements f.body) (b.mark f.name) b' := by
  simp only [Function.lower, bind_eq_ok_iff] at h
  obtain ⟨⟨i, b₁⟩, h₁, h₂⟩ := h
  obtain ⟨hfree, heq⟩ := Builder.bindLabel_eq_ok_iff.mp h₁
  obtain ⟨rfl, rfl⟩ := Prod.mk.inj heq
  exact ⟨hfree, Node.lowers_of_foldlM_lowerStatement h₂⟩

/-- Adds the code of a part. -/
def Part.lower : Part → Builder → Except CodeError Builder
  | .expression e, b => e.lowerExpression b
  | .arguments position es, b => Node.lowerArguments position es b
  | .statement n, b => n.lowerStatement b
  | .statements ns, b => ns.foldlM Node.lowerStatement b

namespace Lowers

variable {part : Part} {b b' : Builder}

lemma isMissing_eq_false {e : Node} (h : Lowers (.expression e) b b') : e.isMissing = false := by
  cases h <;> rfl

/-- The relation holds only of builders that the functions lead to. -/
theorem lower_eq_ok (h : Lowers part b b') : part.lower b = .ok b' := by
  induction h with
  | constant hvalue =>
    simp only [Part.lower, Node.lowerExpression, bind_eq_ok_iff]
    exact ⟨_, hvalue, rfl⟩
  | symbol => rfl
  | binary _ _ ihleft ihright =>
    simp only [Part.lower, Node.lowerExpression, bind_eq_ok_iff]
    exact ⟨_, ihleft, _, ihright, rfl⟩
  | negation _ ih | call _ ih =>
    simp only [Part.lower, Node.lowerExpression, bind_eq_ok_iff]
    exact ⟨_, ih, rfl⟩
  | noArguments => rfl
  | argument _ _ ihfirst ihrest =>
    simp only [Part.lower, Node.lowerArguments, bind_eq_ok_iff]
    exact ⟨_, ihfirst, ihrest⟩
  | evaluate _ ih => exact ih
  | assign _ ih =>
    simp only [Part.lower, Node.lowerStatement, bind_eq_ok_iff]
    exact ⟨_, ih, rfl⟩
  | giveBack => rfl
  | giveBackValue hvalue ih =>
    simp only [Part.lower, Node.lowerStatement, hvalue.isMissing_eq_false]
    exact bind_eq_ok_iff.mpr ⟨_, ih, rfl⟩
  | conditional _ hlabel _ hfree ihcondition ihthen =>
    simp only [Part.lower, Node.lowerStatement, Node.lowerConditional, bind_eq_ok_iff]
    refine ⟨_, ihcondition, ?_⟩
    rw [hlabel]
    exact ⟨_, ihthen, _, Builder.bindLabel_of_get?_eq_none hfree, rfl⟩
  | conditionalElse _ hlabel _ hfree helse ihcondition ihthen ihelse =>
    simp only [Part.lower, Node.lowerStatement, Node.lowerConditional, bind_eq_ok_iff]
    refine ⟨_, ihcondition, ?_⟩
    rw [hlabel]
    refine ⟨_, ihthen, _, Builder.bindLabel_of_get?_eq_none hfree, ?_⟩
    simp only [helse.isMissing_eq_false]
    exact ihelse
  | noStatements => rfl
  | cons _ _ ihfirst ihrest =>
    simp only [Part.lower, List.foldlM_cons, bind_eq_ok_iff]
    exact ⟨_, ihfirst, ihrest⟩

end Lowers

/-- A function whose name is free is lowered as its body is. -/
theorem Function.lower_of_lowers {f : Function} {b b' : Builder}
    (hfree : b.labels.get? f.name = none) (h : Lowers (.statements f.body) (b.mark f.name) b') :
    f.lower b = .ok b' := by
  simp only [Function.lower, bind_eq_ok_iff]
  exact ⟨_, Builder.bindLabel_of_get?_eq_none hfree, h.lower_eq_ok⟩

/-! ### What holds along lowering -/

/-- A relation that holds between the ends of every row of operations on a builder. -/
structure Builder.HoldsAlong (R : Builder → Builder → Prop) : Prop where
  refl : ∀ b, R b b
  trans : ∀ {b b₁ b₂}, R b b₁ → R b₁ b₂ → R b b₂
  append : ∀ b i, R b (b.append i)
  slotFor : ∀ b x, R b (b.slotFor x).2
  newLabel : ∀ {b b₁ label}, b.newLabel = (label, b₁) → R b b₁
  mark : ∀ b name, R b (b.mark name)

namespace Builder.HoldsAlong

variable {R : Builder → Builder → Prop} {fs : List Function} {f : Function} {part : Part}
  {b b' : Builder}

/-- Lowering is a row of operations. -/
theorem of_lowers (hR : HoldsAlong R) (h : Lowers part b b') : R b b' := by
  induction h with
  | constant | giveBack => exact hR.append _ _
  | symbol => exact hR.trans (hR.slotFor _ _) (hR.append _ _)
  | binary _ _ ihleft ihright =>
    exact hR.trans (hR.trans ihleft (hR.append _ _)) (hR.trans ihright (hR.append _ _))
  | negation _ ih | call _ ih | giveBackValue _ ih => exact hR.trans ih (hR.append _ _)
  | noArguments | noStatements => exact hR.refl _
  | argument _ _ ihfirst ihrest => exact hR.trans (hR.trans ihfirst (hR.append _ _)) ihrest
  | evaluate _ ih => exact ih
  | assign _ ih => exact hR.trans ih (hR.trans (hR.slotFor _ _) (hR.append _ _))
  | conditional _ hlabel _ _ ihcondition ihthen =>
    have htest := hR.trans (hR.trans ihcondition (hR.append _ _)) (hR.newLabel hlabel)
    have hthen := hR.trans (hR.append _ _) ihthen
    exact hR.trans htest (hR.trans hthen (hR.mark _ _))
  | conditionalElse _ hlabel _ _ _ ihcondition ihthen ihelse =>
    have htest := hR.trans (hR.trans ihcondition (hR.append _ _)) (hR.newLabel hlabel)
    have hthen := hR.trans (hR.append _ _) ihthen
    exact hR.trans htest (hR.trans hthen (hR.trans (hR.mark _ _) ihelse))
  | cons _ _ ihfirst ihrest => exact hR.trans ihfirst ihrest

theorem of_lower (hR : HoldsAlong R) (h : f.lower b = .ok b') : R b b' := by
  obtain ⟨-, hbody⟩ := Function.lowers_of_lower h
  exact hR.trans (hR.mark b f.name) (hR.of_lowers hbody)

theorem of_foldlM_lower (hR : HoldsAlong R) (h : fs.foldlM Function.lower b = .ok b') :
    R b b' := by
  induction fs generalizing b with
  | nil =>
    obtain rfl := Except.ok.inj h
    exact hR.refl _
  | cons f fs ih =>
    rw [List.foldlM_cons, bind_eq_ok_iff] at h
    obtain ⟨b₁, h₁, h₂⟩ := h
    exact hR.trans (hR.of_lower h₁) (ih h₂)

end Builder.HoldsAlong

/-! ### Nothing is taken away -/

/-- No operation changes what was collected before. -/
theorem Builder.holdsAlong_within : HoldsAlong fun b b' => b.Within b'.code where
  refl := .refl
  trans h h' := h.trans h'
  append := .append
  slotFor := .slotFor
  newLabel h := .newLabel h
  mark := .mark

/-- Places stay numbered. -/
theorem Builder.holdsAlong_numbered :
    HoldsAlong fun b b' => b.slots.Numbered → b'.slots.Numbered where
  refl _ h := h
  trans h h' := h' ∘ h
  append _ _ h := h
  slotFor _ x h := Builder.numbered_slotFor h x
  newLabel h hb := by rwa [Builder.slots_of_newLabel h]
  mark _ _ h := h

/-- Adding code keeps what was collected before. -/
theorem Lowers.within {part : Part} {b b' : Builder} (h : Lowers part b b') : b.Within b'.code :=
  Builder.holdsAlong_within.of_lowers h

/-! ### Programs -/

variable {fs : List Function} {f : Function} {b b' : Builder} {p : Program} {c : Code}

theorem within_of_foldlM_lower (h : fs.foldlM Function.lower b = .ok b') : b.Within b'.code :=
  Builder.holdsAlong_within.of_foldlM_lower h

/-- The code of a program is what a builder has collected from its functions, if all labels that are
used are bound. -/
theorem Program.lower_eq_ok_iff : p.lower = .ok c ↔
    ∃ b, p.functions.foldlM Function.lower (.empty (p.functions.map (·.name))) = .ok b ∧
      b.code.unresolvedLabels = [] ∧ c = b.code := by
  simp only [Program.lower, bind_eq_ok_iff, Builder.finish, Code.checkLabels]
  constructor
  · rintro ⟨b, hb, h⟩
    refine ⟨b, hb, ?_⟩
    cases hl : b.code.unresolvedLabels with
    | nil =>
      rw [hl] at h
      exact ⟨rfl, (Except.ok.inj h).symm⟩
    | cons label rest =>
      rw [hl] at h
      cases h
  · rintro ⟨b, hb, hl, rfl⟩
    refine ⟨b, hb, ?_⟩
    rw [hl]

/-- The places of the variables of a code are numbered. -/
theorem Program.numbered_of_lower (h : p.lower = .ok c) : c.slots.Numbered := by
  obtain ⟨b, hb, -, rfl⟩ := Program.lower_eq_ok_iff.mp h
  exact Builder.holdsAlong_numbered.of_foldlM_lower hb Table.Numbered.nil

/-- Every function of a program has its place in the code: its name marks where the code of its body
begins. -/
theorem Program.exists_place (h : p.lower = .ok c) (hf : f ∈ p.functions) :
    ∃ b b' : Builder, c.labels.get? f.name = some (b.position : Int) ∧
      Lowers (.statements f.body) (b.mark f.name) b' ∧ b'.Within c := by
  obtain ⟨last, hlast, -, rfl⟩ := Program.lower_eq_ok_iff.mp h
  generalize Builder.empty (p.functions.map (·.name)) = first at hlast
  generalize p.functions = fs at hlast hf
  induction fs generalizing first with
  | nil => cases hf
  | cons g gs ih =>
    rw [List.foldlM_cons, bind_eq_ok_iff] at hlast
    obtain ⟨b₁, h₁, h₂⟩ := hlast
    rcases List.mem_cons.mp hf with rfl | hf
    · obtain ⟨hfree, hbody⟩ := Function.lowers_of_lower h₁
      have hwithin := within_of_foldlM_lower h₂
      exact ⟨first, b₁, (hbody.within.trans hwithin).get?_mark hfree, hbody, hwithin⟩
    · exact ih b₁ h₂ hf

end TinyCompiler
