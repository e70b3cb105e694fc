import TinyCompiler.Proofs.Soundness

/-!
# What is derived is read

Every derivation is followed token by token. The words of a sum, a product or an operand lead from a
place where an operand must come to an operand with operators waiting for it; closing those that
bind tighter than the phrase itself gives the tree of the derivation back (`Reaches`). Statements,
bodies and functions then lead from one state of the reader to the next. Together with soundness
this makes reading and deriving the same, and since reading has one result, so has deriving.
-/

namespace TinyCompiler

namespace Progress

variable {least : Int} {p q r : Progress} {stack : List Pending} {operand : Node} {t : Token}
  {ts us : List Token}

/-- Tokens that all belong to the expression lead from one point of its reading to another. -/
inductive Reads (least : Int) : Progress → List Token → Progress → Prop
  | refl (p : Progress) : Reads least p [] p
  | cons {p q r : Progress} {t : Token} {ts : List Token} (hstep : p.step least t = .ok (.more q))
      (hrest : Reads least q ts r) : Reads least p (t :: ts) r

lemma Reads.trans (h : Reads least p ts q) (h' : Reads least q us r) :
    Reads least p (ts ++ us) r := by
  induction h with
  | refl p => exact h'
  | cons hstep hrest ih => exact .cons hstep (ih h')

lemma Reads.single (h : p.step least t = .ok (.more q)) : Reads least p [t] q := .cons h (.refl q)

lemma Reads.read (h : Reads least p ts q) (rest : List Token) :
    p.read least (ts ++ rest) = q.read least rest := by
  induction h with
  | refl p => rfl
  | cons hstep hrest ih =>
    rw [List.cons_append, Progress.read, hstep]
    exact ih

lemma step_awaiting (h : onAwaiting stack t = .ok q) :
    (Progress.awaiting stack).step least t = .ok (.more q) := by
  rw [step, h]
  rfl

/-- The operand that has been read, with the stack that waits for it. -/
def operand? : Progress → Option (Node × List Pending)
  | .named name location stack => some (.symbol name location, stack)
  | .reached operand stack => some (operand, stack)
  | .awaiting _ | .opened .. => none

/-- After an operand only an opening parenthesis looks back at what the operand is. -/
lemma step_of_operand? (h : p.operand? = some (operand, stack))
    (ht : t.lexeme ≠ .mark .openParen) :
    p.step least t = onReached least operand stack t := by
  cases p with
  | named name l below =>
    cases h
    have : ¬ t.isMark .openParen = true := fun hmark => ht (Token.isMark_iff.mp hmark)
    simp only [step, if_neg this]
  | reached e below =>
    cases h
    rfl
  | awaiting below => cases h
  | opened name l below => cases h

/-- Where tokens end after an operand, the operators that wait for it are closed. -/
lemma finish_of_operand? (h : p.operand? = some (operand, stack)) :
    p.finish = finishReached operand stack := by
  cases p <;> cases h <;> rfl

/-- A token that can come after an operand and is neither an operator nor an opening parenthesis. -/
def Ends (t : Token) : Prop := t.lexeme ≠ .mark .openParen ∧ operator? t = none

lemma step_of_ends (h : p.operand? = some (operand, stack)) (ht : Ends t) :
    p.step least t = onDelimiter operand stack t := by
  rw [step_of_operand? h ht.1, onReached, ht.2]

lemma ends_of_mark {m : Mark} (h : t.lexeme = .mark m) (hparen : m ≠ .openParen)
    (hop : m.op? = none) : Ends t := by
  constructor
  · simpa [h] using hparen
  · simpa [operator?, h] using hop

lemma ends_of_closeParen (h : t.lexeme = .mark .closeParen) : Ends t :=
  ends_of_mark h (by decide) rfl

lemma ends_of_semicolon (h : t.lexeme = .mark .semicolon) : Ends t :=
  ends_of_mark h (by decide) rfl

lemma ends_of_keyword {k : Keyword} (h : t.lexeme = .keyword k) : Ends t := by
  constructor
  · simp [h]
  · simp [operator?, h]

end Progress

/-! ### Closing operators -/

section Close

variable {least power : Int} {stack : List Pending} {operand : Node}

/-- Operators that bind no tighter stay. -/
lemma closeAbove_of_slotPower_le (h : slotPower least stack ≤ power) :
    closeAbove power operand stack = (operand, stack) := by
  cases stack with
  | nil => rfl
  | cons p stack =>
    rw [closeAbove]
    cases hp : p.power? with
    | none => rfl
    | some q =>
      have hq : q ≤ power := by simpa [slotPower, hp] using h
      show (if power < q then _ else _) = _
      rw [if_neg (by omega)]

/-- An operator that binds tighter is closed. -/
lemma closeAbove_cons {p : Pending} {q : Int} (hp : p.power? = some q) (h : power < q) :
    closeAbove power operand (p :: stack) = closeAbove power (p.close operand) stack := by
  rw [closeAbove, hp]
  exact if_pos h

end Close

/-! ### Expressions -/

/-- Tokens lead from a stack to an operand that makes the given tree, if operators are closed for
one that binds to the left with at most some power. -/
def Reaches (least power : Int) (stack : List Pending) (ts : List Token) (e : Node) : Prop :=
  ∃ q operand below e', Progress.Reads least (.awaiting stack) ts q ∧
    q.operand? = some (operand, below) ∧ e'.bare = e ∧
    ∀ j ≤ power, closeAbove j operand below = closeAbove j e' stack

namespace Reaches

variable {least power : Int} {stack : List Pending} {ts us : List Token} {t : Token} {e l r : Node}

lemma mono {power' : Int} (h : Reaches least power stack ts e) (hle : power' ≤ power) :
    Reaches least power' stack ts e := by
  obtain ⟨q, operand, below, e', hreads, hq, he', hclose⟩ := h
  exact ⟨q, operand, below, e', hreads, hq, he', fun j hj => hclose j (by omega)⟩

/-- An operand that was read whole. -/
lemma of_operand {q : Progress} {operand : Node}
    (hreads : Progress.Reads least (.awaiting stack) ts q)
    (hq : q.operand? = some (operand, stack)) (he : operand.bare = e) :
    Reaches least power stack ts e :=
  ⟨q, operand, stack, operand, hreads, hq, he, fun _ _ => rfl⟩

lemma negation (ht : t.lexeme = .mark .minus) (h : ∀ s, Reaches least 4 s ts e) :
    Reaches least 4 stack (t :: ts) (.unary (some .sub) e none) := by
  obtain ⟨q, operand, below, e', hreads, hq, rfl, hclose⟩ := h (.negation t.location :: stack)
  refine ⟨q, operand, below, .unary (some .sub) e' t.location, ?_, hq, rfl, ?_⟩
  · refine .cons ?_ hreads
    apply Progress.step_awaiting
    simp only [Progress.onAwaiting, ht]
  · intro j hj
    have hlt : j < negationPower := by
      rw [negationPower]
      omega
    rw [hclose j hj, closeAbove_cons rfl hlt]
    rfl

/-- The operator ends its left operand, and the right operand is read on top of both. -/
lemma operation {m : Mark} {op : Op} (hop : m.op? = some op) (ht : t.lexeme = .mark m)
    (hslot : slotPower least stack ≤ op.leftPower)
    (hleft : Reaches least op.leftPower stack ts l)
    (hright : ∀ l', Reaches least op.leftPower (.operation l' op :: stack) us r) :
    Reaches least op.leftPower stack (ts ++ t :: us) (.binary (some op) l r none) := by
  obtain ⟨q, operand, below, l', hreads, hq, rfl, hclose⟩ := hleft
  obtain ⟨q', operand', below', r', hreads', hq', rfl, hclose'⟩ := hright l'
  -- what was read of the left operand is closed, and what waits for the whole operation is not
  have hleft : closeAbove op.leftPower operand below = (l', stack) := by
    rw [hclose _ (Int.le_refl _), closeAbove_of_slotPower_le hslot]
  have hstep : q.step least t = .ok (.more (.awaiting (.operation l' op :: stack))) := by
    have hparen : t.lexeme ≠ .mark .openParen := by
      rw [ht]
      rintro ⟨⟩
      cases hop
    rw [Progress.step_of_operand? hq hparen, Progress.onReached]
    simp only [Progress.operator?, ht, hop, Progress.onOperator, hleft]
    cases stack with
    | nil =>
      have : ¬ op.leftPower < least := Int.not_lt.mpr hslot
      simp only [if_neg this]
    | cons p stack => rfl
  refine ⟨q', operand', below', .binary (some op) l' r' l'.location, ?_, hq', rfl, ?_⟩
  · exact hreads.trans (.cons hstep hreads')
  · intro j hj
    have hlt : j < op.rightPower := by
      rw [Op.rightPower]
      omega
    rw [hclose' j hj, closeAbove_cons rfl hlt]
    rfl

end Reaches

/-- The words of a phrase are read as the phrase wherever its level allows it to stand. -/
def IsRead (least : Int) (w : List Lexeme) : Phrase → Prop
  | .sum e => ∀ ts stack, ts.map (·.lexeme) = w → slotPower least stack ≤ 1 →
      Reaches least 1 stack ts e
  | .product e => ∀ ts stack, ts.map (·.lexeme) = w → slotPower least stack ≤ 3 →
      Reaches least 3 stack ts e
  | .unary e | .atom e => ∀ ts stack, ts.map (·.lexeme) = w → Reaches least 4 stack ts e
  | .arguments es => ∀ ts stack name l earlier t, ts.map (·.lexeme) = w →
      t.lexeme = .mark .closeParen →
      ∃ es', es'.map Node.bare = es ∧
        Progress.Reads least (.awaiting (.argument name l earlier :: stack)) (ts ++ [t])
          (.reached (.call name (earlier ++ es') l) stack)

namespace IsRead

variable {least : Int} {u v w : List Lexeme} {e l r : Node} {es : List Node}

/-- Tokens whose words are two rows with a word between them. -/
lemma exists_of_map_eq {ts : List Token} {next : Lexeme}
    (h : ts.map (·.lexeme) = u ++ next :: v) :
    ∃ us t vs, ts = us ++ t :: vs ∧ us.map (·.lexeme) = u ∧ t.lexeme = next ∧
      vs.map (·.lexeme) = v := by
  obtain ⟨us, vs', rfl, hus, hvs'⟩ := List.map_eq_append_iff.mp h
  obtain ⟨t, vs, rfl, ht, hvs⟩ := List.map_eq_cons_iff.mp hvs'
  exact ⟨us, t, vs, rfl, hus, ht, hvs⟩

/-- What a delimiter finds below an expression that stands alone, in parentheses or as an
argument. -/
lemma closeOperators {ts : List Token} {stack : List Pending} (h : IsRead least w (.sum e))
    (hts : ts.map (·.lexeme) = w) (hslot : slotPower least stack ≤ 0) :
    ∃ q operand below e', Progress.Reads least (.awaiting stack) ts q ∧
      q.operand? = some (operand, below) ∧ e'.bare = e ∧
      TinyCompiler.closeOperators operand below = (e', stack) := by
  obtain ⟨q, operand, below, e', hreads, hq, he', hclose⟩ := h ts stack hts (by omega)
  refine ⟨q, operand, below, e', hreads, hq, he', ?_⟩
  rw [closeOperators_eq_closeAbove, hclose 0 (by omega), closeAbove_of_slotPower_le hslot]

lemma addition {m : Mark} {op : Op} (hleft : IsRead least u (.sum l)) (hop : Additive m op)
    (hright : IsRead least v (.product r)) :
    IsRead least (u ++ .mark m :: v) (.sum (.binary (some op) l r none)) := by
  intro ts stack hts hslot
  obtain ⟨us, t, vs, rfl, hus, ht, hvs⟩ := exists_of_map_eq hts
  have hop? : m.op? = some op := by cases hop <;> rfl
  have hpower : op.leftPower = 1 := by cases hop <;> rfl
  -- a product may stand to the right, since the operator binds there with power two
  have hr : ∀ l', Reaches least 1 (.operation l' op :: stack) vs r := by
    intro l'
    refine (hright vs _ hvs ?_).mono (by decide)
    show op.leftPower + 1 ≤ 3
    omega
  have hl := hleft us stack hus hslot
  rw [← hpower] at hslot hl hr ⊢
  exact Reaches.operation hop? ht hslot hl hr

lemma multiplication {m : Mark} {op : Op} (hleft : IsRead least u (.product l))
    (hop : Multiplicative m op) (hright : IsRead least v (.unary r)) :
    IsRead least (u ++ .mark m :: v) (.product (.binary (some op) l r none)) := by
  intro ts stack hts hslot
  obtain ⟨us, t, vs, rfl, hus, ht, hvs⟩ := exists_of_map_eq hts
  have hop? : m.op? = some op := by cases hop <;> rfl
  have hpower : op.leftPower = 3 := by cases hop <;> rfl
  have hr : ∀ l', Reaches least 3 (.operation l' op :: stack) vs r := by
    intro l'
    exact (hright vs _ hvs).mono (by decide)
  have hl := hleft us stack hus hslot
  rw [← hpower] at hslot hl hr ⊢
  exact Reaches.operation hop? ht hslot hl hr

lemma negation (h : IsRead least w (.unary e)) :
    IsRead least (.mark .minus :: w) (.unary (.unary (some .sub) e none)) := by
  intro ts stack hts
  obtain ⟨t, ts, rfl, ht, hts⟩ := List.map_eq_cons_iff.mp hts
  exact Reaches.negation ht fun s => h ts s hts

lemma number {x : Binary64} : IsRead least [.number x] (.atom (.constant x none)) := by
  intro ts stack hts
  obtain ⟨t, ts, rfl, ht, hts⟩ := List.map_eq_cons_iff.mp hts
  obtain rfl := List.map_eq_nil_iff.mp hts
  have hstep : (Progress.awaiting stack).step least t =
      .ok (.more (.reached (.constant x t.location) stack)) :=
    Progress.step_awaiting (by simp only [Progress.onAwaiting, ht])
  exact .of_operand (.single hstep) rfl rfl

lemma step_identifier {t : Token} {name : String} (stack : List Pending)
    (ht : t.lexeme = .identifier name) :
    (Progress.awaiting stack).step least t = .ok (.more (.named name t.location stack)) :=
  Progress.step_awaiting (by simp only [Progress.onAwaiting, ht])

lemma name {x : String} : IsRead least [.identifier x] (.atom (.symbol x none)) := by
  intro ts stack hts
  obtain ⟨t, ts, rfl, ht, hts⟩ := List.map_eq_cons_iff.mp hts
  obtain rfl := List.map_eq_nil_iff.mp hts
  exact .of_operand (.single (step_identifier stack ht)) rfl rfl

lemma step_openParen {t : Token} {name : String} {l : Option Location} {stack : List Pending}
    (ht : t.lexeme = .mark .openParen) :
    (Progress.named name l stack).step least t = .ok (.more (.opened name l stack)) := by
  simp only [Progress.step, if_pos (Token.isMark_iff.mpr ht)]

lemma emptyCall {f : String} :
    IsRead least [.identifier f, .mark .openParen, .mark .closeParen]
      (.atom (.call f [] none)) := by
  intro ts stack hts
  obtain ⟨t₁, ts, rfl, ht₁, hts⟩ := List.map_eq_cons_iff.mp hts
  obtain ⟨t₂, ts, rfl, ht₂, hts⟩ := List.map_eq_cons_iff.mp hts
  obtain ⟨t₃, ts, rfl, ht₃, hts⟩ := List.map_eq_cons_iff.mp hts
  obtain rfl := List.map_eq_nil_iff.mp hts
  have hclose : (Progress.opened f t₁.location stack).step least t₃ =
      .ok (.more (.reached (.call f [] t₁.location) stack)) := by
    simp only [Progress.step, if_pos (Token.isMark_iff.mpr ht₃)]
  have hopened := Progress.Reads.cons (step_openParen ht₂) (.single hclose)
  exact .of_operand (.cons (step_identifier stack ht₁) hopened) rfl rfl

/-- After the parenthesis of a call the first argument is read like any other. -/
lemma reads_opened {q : Progress} {t : Token} {ts : List Token} {f : String}
    {l : Option Location} {stack : List Pending}
    (h : Progress.Reads least (.awaiting (.argument f l [] :: stack)) (t :: ts) q) :
    Progress.Reads least (.opened f l stack) (t :: ts) q := by
  cases h with
  | @cons _ q' _ _ _ hstep hrest =>
    refine .cons ?_ hrest
    have hparen : ¬ t.isMark .closeParen = true := by
      intro hmark
      obtain ⟨_, hawaiting, -⟩ := exists_of_map_more hstep
      simp only [Progress.onAwaiting, Token.isMark_iff.mp hmark] at hawaiting
      cases hawaiting
    simp only [Progress.step, if_neg hparen]
    exact hstep

lemma call {f : String} (h : IsRead least w (.arguments es)) :
    IsRead least (.identifier f :: .mark .openParen :: (w ++ [.mark .closeParen]))
      (.atom (.call f es none)) := by
  intro ts stack hts
  obtain ⟨t₁, ts, rfl, ht₁, hts⟩ := List.map_eq_cons_iff.mp hts
  obtain ⟨t₂, ts, rfl, ht₂, hts⟩ := List.map_eq_cons_iff.mp hts
  obtain ⟨us, t₃, vs, rfl, hus, ht₃, hvs⟩ := exists_of_map_eq hts
  obtain rfl := List.map_eq_nil_iff.mp hvs
  obtain ⟨es', rfl, hreads⟩ := h us stack f t₁.location [] t₃ hus ht₃
  have hopened : Progress.Reads least (.opened f t₁.location stack) (us ++ [t₃])
      (.reached (.call f es' t₁.location) stack) := by
    cases us with
    | nil => exact reads_opened hreads
    | cons t us => exact reads_opened hreads
  refine .of_operand (.cons (step_identifier stack ht₁) (.cons (step_openParen ht₂) hopened)) rfl ?_
  rw [Node.bare, Node.bareAll_eq_map]

lemma group (h : IsRead least w (.sum e)) :
    IsRead least (.mark .openParen :: (w ++ [.mark .closeParen])) (.atom e) := by
  intro ts stack hts
  obtain ⟨t₁, ts, rfl, ht₁, hts⟩ := List.map_eq_cons_iff.mp hts
  obtain ⟨us, t₂, vs, rfl, hus, ht₂, hvs⟩ := exists_of_map_eq hts
  obtain rfl := List.map_eq_nil_iff.mp hvs
  have hslot : slotPower least (.group :: stack) ≤ 0 := Int.le_refl 0
  obtain ⟨q, operand, below, e', hreads, hq, he', hclose⟩ := h.closeOperators hus hslot
  have hopen : (Progress.awaiting stack).step least t₁ =
      .ok (.more (.awaiting (.group :: stack))) :=
    Progress.step_awaiting (by simp only [Progress.onAwaiting, ht₁])
  have hend : q.step least t₂ = .ok (.more (.reached e' stack)) := by
    rw [Progress.step_of_ends hq (Progress.ends_of_closeParen ht₂), Progress.onDelimiter]
    simp only [hclose, if_pos (Token.isMark_iff.mpr ht₂)]
  exact .of_operand (.cons hopen (hreads.trans (.single hend))) rfl he'

/-- The last argument of a call, up to the parenthesis that closes the call. -/
lemma lastArgument (h : IsRead least w (.sum e)) : IsRead least w (.arguments [e]) := by
  intro ts stack f l earlier t hts ht
  have hslot : slotPower least (.argument f l earlier :: stack) ≤ 0 := Int.le_refl 0
  obtain ⟨q, operand, below, e', hreads, hq, he', hclose⟩ := h.closeOperators hts hslot
  refine ⟨[e'], by simp [he'], hreads.trans (.single ?_)⟩
  rw [Progress.step_of_ends hq (Progress.ends_of_closeParen ht), Progress.onDelimiter]
  simp only [hclose, if_pos (Token.isMark_iff.mpr ht)]

lemma argument (hfirst : IsRead least u (.sum e)) (hrest : IsRead least v (.arguments es)) :
    IsRead least (u ++ .mark .comma :: v) (.arguments (e :: es)) := by
  intro ts stack f l earlier t hts ht
  obtain ⟨us, t', vs, rfl, hus, ht', hvs⟩ := exists_of_map_eq hts
  have hslot : slotPower least (.argument f l earlier :: stack) ≤ 0 := Int.le_refl 0
  obtain ⟨q, operand, below, e', hreads, hq, he', hclose⟩ := hfirst.closeOperators hus hslot
  obtain ⟨es', hes', hreads'⟩ := hrest vs stack f l (earlier ++ [e']) t hvs ht
  have hcomma : q.step least t' =
      .ok (.more (.awaiting (.argument f l (earlier ++ [e']) :: stack))) := by
    rw [Progress.step_of_ends hq (Progress.ends_of_mark ht' (by decide) rfl), Progress.onDelimiter]
    have hparen : ¬ t'.isMark .closeParen = true := by
      rw [Token.isMark_iff, ht']
      simp
    simp only [hclose, if_neg hparen, if_pos (Token.isMark_iff.mpr ht')]
  refine ⟨e' :: es', by simp [he', hes'], ?_⟩
  simpa using hreads.trans (.cons hcomma hreads')

end IsRead

/-- Every phrase is read as its derivation says. -/
lemma Derives.isRead {w : List Lexeme} {phrase : Phrase} (least : Int) (h : Derives w phrase) :
    IsRead least w phrase := by
  induction h with
  -- a level inside another one only asks for less
  | product h ih =>
    intro ts stack hts hslot
    exact (ih ts stack hts (by omega)).mono (by decide)
  | addition hleft hop hright ihleft ihright => exact .addition ihleft hop ihright
  | unary h ih =>
    intro ts stack hts hslot
    exact (ih ts stack hts).mono (by decide)
  | multiplication hleft hop hright ihleft ihright => exact .multiplication ihleft hop ihright
  | negation h ih => exact .negation ih
  | atom h ih => exact ih
  | number => exact .number
  | name => exact .name
  | emptyCall => exact .emptyCall
  | call h ih => exact .call ih
  | group h ih => exact .group ih
  | lastArgument h ih => exact .lastArgument ih
  | argument hfirst hrest ihfirst ihrest => exact .argument ihfirst ihrest

/-- A sum is read up to the token that ends it. -/
lemma Derives.exists_done {ts : List Token} {e : Node} (h : Derives (ts.map (·.lexeme)) (.sum e)) :
    ∃ q e', Progress.Reads 0 .start ts q ∧ e'.bare = e ∧
      ∀ t, Progress.Ends t → q.step 0 t = .ok (.done e') := by
  have hslot : slotPower 0 [] ≤ 0 := Int.le_refl 0
  obtain ⟨q, operand, below, e', hreads, hq, he', hclose⟩ := (h.isRead 0).closeOperators rfl hslot
  refine ⟨q, e', hreads, he', fun t ht => ?_⟩
  rw [Progress.step_of_ends hq ht, Progress.onDelimiter]
  simp only [hclose]

/-! ### Statements -/

namespace Reader

variable {r r' r'' : Reader} {ts us : List Token} {t : Token}

/-- Tokens lead from one state of the reader to another, whatever comes after them. -/
def Reads (r : Reader) (ts : List Token) (r' : Reader) : Prop :=
  ∀ rest, r.readTokens (ts ++ rest) = r'.readTokens rest

lemma Reads.trans (h : r.Reads ts r') (h' : r'.Reads us r'') : r.Reads (ts ++ us) r'' := by
  intro rest
  rw [List.append_assoc, h, h']

lemma Reads.of_step (h : r.step t = .ok r') : r.Reads [t] r' := by
  intro rest
  show r.readTokens (t :: rest) = _
  rw [readTokens, h]

lemma Reads.cons (h : r.step t = .ok r') (h' : r'.Reads ts r'') : r.Reads (t :: ts) r'' :=
  (Reads.of_step h).trans h'

lemma expectMark_of_lexeme {m : Mark} {expected : String} (h : t.lexeme = .mark m) :
    expectMark t m expected r = .ok r :=
  if_pos (Token.isMark_iff.mpr h)

variable {functions : List Function} {l : Option Location} {name : String}
  {statements : List Node} {s s' : PartialStatement}

lemma step_more (h : s.step t = .ok (.more s')) :
    step ⟨functions, .inside l name statements s⟩ t =
      .ok ⟨functions, .inside l name statements s'⟩ := by
  simp only [step, h]

lemma step_done {n : Node} (h : s.step t = .ok (.done n)) :
    step ⟨functions, .inside l name statements s⟩ t =
      .ok ⟨functions, .body l name (statements ++ [n])⟩ := by
  simp only [step, h]

/-- Where a statement holds an expression that is being read, the expression's tokens are read as
they are alone. -/
lemma reads_inside {inside : Progress → PartialStatement}
    {after : Token → Node → Except ParseError PartialStatement.Advance} {p q : Progress}
    (hinside : ∀ p t, (inside p).step t = PartialStatement.inExpression p t inside (after t))
    (h : Progress.Reads 0 p ts q) :
    Reads ⟨functions, .inside l name statements (inside p)⟩ ts
      ⟨functions, .inside l name statements (inside q)⟩ := by
  induction h with
  | refl p => exact fun rest => rfl
  | @cons p p' q t ts hstep hrest ih =>
    refine .cons (step_more ?_) ih
    rw [hinside, PartialStatement.inExpression, hstep]

/-- An expression in a statement, up to the token that ends it. -/
lemma exists_reads_inside (functions : List Function) (l : Option Location) (name : String)
    (statements : List Node) (inside : Progress → PartialStatement)
    {after : Token → Node → Except ParseError PartialStatement.Advance} {e : Node}
    (hinside : ∀ p t, (inside p).step t = PartialStatement.inExpression p t inside (after t))
    (h : Derives (ts.map (·.lexeme)) (.sum e)) :
    ∃ q e', Progress.Reads 0 .start ts q ∧ e'.bare = e ∧
      Reads ⟨functions, .inside l name statements (inside .start)⟩ ts
        ⟨functions, .inside l name statements (inside q)⟩ ∧
      ∀ t, Progress.Ends t → (inside q).step t = after t e' := by
  obtain ⟨q, e', hreads, he', hdone⟩ := h.exists_done
  refine ⟨q, e', hreads, he', reads_inside hinside hreads, fun t ht => ?_⟩
  rw [hinside, PartialStatement.inExpression, hdone t ht]

/-- The token that ends a statement. -/
lemma endStatement_of_semicolon {n : Node} (ht : t.lexeme = .mark .semicolon) :
    PartialStatement.endStatement n t = .ok (.done n) := by
  rw [PartialStatement.endStatement, if_pos (Token.isMark_iff.mpr ht)]

lemma step_begin (ht : Stage.beginStatement? t = some s) :
    step ⟨functions, .body l name statements⟩ t =
      .ok ⟨functions, .inside l name statements s⟩ := by
  have hbrace : ¬ t.isMark .closeBrace = true := by
    intro hmark
    simp [Stage.beginStatement?, Token.isMark_iff.mp hmark] at ht
  simp only [step, if_neg hbrace, ht]

/-- A token with which an expression goes on from its start may begin an expression. -/
lemma startsExpression_of_step {a : Advance} (h : Progress.start.step 0 t = .ok a) :
    t.kind.startsExpression = true := by
  obtain ⟨q, hq, -⟩ := exists_of_map_more h
  rw [Progress.onAwaiting] at hq
  split at hq
  next value ht => simp [Token.kind, ht, Lexeme.kind, TokenKind.startsExpression]
  next x ht => simp [Token.kind, ht, Lexeme.kind, TokenKind.startsExpression]
  next ht => simp [Token.kind, ht, Lexeme.kind, TokenKind.startsExpression]
  next ht =>
    simp [Token.kind, ht, Lexeme.kind, TokenKind.startsExpression, TokenKind.beforePower?]
  next => cases hq

/-- After `return` a value is read like the value of any other statement. -/
lemma reads_giveBack {l' : Option Location} {q : Progress} {ts : List Token}
    (hreads : Progress.Reads 0 .start ts q) (hts : ts ≠ [])
    (h : Reads ⟨functions, .inside l name statements (.giveBackValue l' .start)⟩ ts r) :
    Reads ⟨functions, .inside l name statements (.giveBack l')⟩ ts r := by
  cases hreads with
  | refl p => exact absurd rfl hts
  | @cons _ q' _ t ts hstep hrest =>
    -- the first token decides that there is a value, and is then taken as part of it
    have hsame : (PartialStatement.giveBack l').step t =
        (PartialStatement.giveBackValue l' .start).step t := by
      rw [PartialStatement.step, if_pos (startsExpression_of_step hstep)]
      rfl
    intro rest
    rw [← h rest, List.cons_append, readTokens, readTokens]
    simp only [step, hsame]

end Reader

/-- No expression is empty. -/
lemma Derives.ne_nil {w : List Lexeme} {phrase : Phrase} (h : Derives w phrase) : w ≠ [] := by
  induction h with
  | product h ih | unary h ih | atom h ih | lastArgument h ih => exact ih
  | _ => simp

namespace Reader

/-- Inside a body, tokens are read as a statement. -/
def ReadsStatement (functions : List Function) (l : Option Location) (name : String)
    (statements : List Node) (ts : List Token) (n : Node) : Prop :=
  ∃ n', n'.bare = n ∧ Reads ⟨functions, .body l name statements⟩ ts
    ⟨functions, .body l name (statements ++ [n'])⟩

variable {functions : List Function} {l : Option Location} {name : String}
  {statements : List Node} {us vs ws : List Token} {t₁ t₂ t₃ t₄ t₅ : Token}

lemma readsStatement_giveBack (ht₁ : t₁.lexeme = .keyword .kwReturn)
    (ht₂ : t₂.lexeme = .mark .semicolon) :
    ReadsStatement functions l name statements [t₁, t₂] (.giveBack .missing none) := by
  have hbegin : Stage.beginStatement? t₁ = some (.giveBack t₁.location) := by
    simp only [Stage.beginStatement?, ht₁]
  have hend : (PartialStatement.giveBack t₁.location).step t₂ =
      .ok (.done (.giveBack .missing t₁.location)) := by
    have hstart : ¬ t₂.kind.startsExpression = true := by
      simp [Token.kind, ht₂, Lexeme.kind, TokenKind.startsExpression, TokenKind.beforePower?]
    rw [PartialStatement.step, if_neg hstart, endStatement_of_semicolon ht₂]
  exact ⟨.giveBack .missing t₁.location, rfl,
    .cons (step_begin hbegin) (.of_step (step_done hend))⟩

lemma readsStatement_giveBackValue {e : Node} (ht₁ : t₁.lexeme = .keyword .kwReturn)
    (he : Derives (us.map (·.lexeme)) (.sum e)) (ht₂ : t₂.lexeme = .mark .semicolon) :
    ReadsStatement functions l name statements (t₁ :: (us ++ [t₂])) (.giveBack e none) := by
  have hbegin : Stage.beginStatement? t₁ = some (.giveBack t₁.location) := by
    simp only [Stage.beginStatement?, ht₁]
  obtain ⟨q, e', hreads, rfl, hinside, hend⟩ := exists_reads_inside functions l name statements
    (.giveBackValue t₁.location) (fun p t => rfl) he
  have hdone := hend t₂ (Progress.ends_of_semicolon ht₂)
  rw [endStatement_of_semicolon ht₂] at hdone
  have hus : us ≠ [] := by simpa using he.ne_nil
  exact ⟨.giveBack e' t₁.location, rfl, .cons (step_begin hbegin)
    ((reads_giveBack hreads hus hinside).trans (.of_step (step_done hdone)))⟩

lemma readsStatement_assign {x : String} {e : Node} (ht₁ : t₁.lexeme = .keyword .kwLet)
    (ht₂ : t₂.lexeme = .identifier x) (ht₃ : t₃.lexeme = .mark .equals)
    (he : Derives (us.map (·.lexeme)) (.sum e)) (ht₄ : t₄.lexeme = .mark .semicolon) :
    ReadsStatement functions l name statements (t₁ :: t₂ :: t₃ :: (us ++ [t₄]))
      (.assign x e none) := by
  have hbegin : Stage.beginStatement? t₁ = some (.assign t₁.location) := by
    simp only [Stage.beginStatement?, ht₁]
  have hname : (PartialStatement.assign t₁.location).step t₂ =
      .ok (.more (.assignName t₁.location x)) := by
    simp only [PartialStatement.step, ht₂]
  have hequals : (PartialStatement.assignName t₁.location x).step t₃ =
      .ok (.more (.assignValue t₁.location x .start)) := by
    simp only [PartialStatement.step, if_pos (Token.isMark_iff.mpr ht₃)]
  obtain ⟨q, e', -, rfl, hinside, hend⟩ := exists_reads_inside functions l name statements
    (.assignValue t₁.location x) (fun p t => rfl) he
  have hdone := hend t₄ (Progress.ends_of_semicolon ht₄)
  rw [endStatement_of_semicolon ht₄] at hdone
  exact ⟨.assign x e' t₁.location, rfl, .cons (step_begin hbegin) (.cons (step_more hname)
    (.cons (step_more hequals) (hinside.trans (.of_step (step_done hdone)))))⟩

/-- The condition of a conditional, with its parentheses. -/
lemma exists_reads_condition {c : Node} (ht₁ : t₁.lexeme = .keyword .kwIf)
    (ht₂ : t₂.lexeme = .mark .openParen) (hc : Derives (us.map (·.lexeme)) (.sum c))
    (ht₃ : t₃.lexeme = .mark .closeParen) :
    ∃ c', c'.bare = c ∧ Reads ⟨functions, .body l name statements⟩ (t₁ :: t₂ :: (us ++ [t₃]))
      ⟨functions, .inside l name statements (.whenTrue t₁.location c' .start)⟩ := by
  have hbegin : Stage.beginStatement? t₁ = some (.conditional t₁.location) := by
    simp only [Stage.beginStatement?, ht₁]
  have hopen : (PartialStatement.conditional t₁.location).step t₂ =
      .ok (.more (.testing t₁.location .start)) := by
    simp only [PartialStatement.step, if_pos (Token.isMark_iff.mpr ht₂)]
  obtain ⟨q, c', -, hc', hinside, hend⟩ := exists_reads_inside functions l name statements
    (.testing t₁.location) (fun p t => rfl) hc
  have hclose := hend t₃ (Progress.ends_of_closeParen ht₃)
  rw [if_pos (Token.isMark_iff.mpr ht₃)] at hclose
  exact ⟨c', hc', .cons (step_begin hbegin)
    (.cons (step_more hopen) (hinside.trans (.of_step (step_more hclose))))⟩

lemma readsStatement_conditional {c t : Node} (ht₁ : t₁.lexeme = .keyword .kwIf)
    (ht₂ : t₂.lexeme = .mark .openParen) (hc : Derives (us.map (·.lexeme)) (.sum c))
    (ht₃ : t₃.lexeme = .mark .closeParen) (ht : Derives (vs.map (·.lexeme)) (.sum t))
    (ht₄ : t₄.lexeme = .mark .semicolon) :
    ReadsStatement functions l name statements (t₁ :: t₂ :: (us ++ t₃ :: (vs ++ [t₄])))
      (.conditional c t .missing none) := by
  obtain ⟨c', rfl, hcondition⟩ := exists_reads_condition ht₁ ht₂ hc ht₃
  obtain ⟨q, t', -, rfl, hinside, hend⟩ := exists_reads_inside functions l name statements
    (.whenTrue t₁.location c') (fun p t => rfl) ht
  have hdone := hend t₄ (Progress.ends_of_semicolon ht₄)
  have helse : ¬ t₄.isKeyword .kwElse = true := by
    rw [Token.isKeyword_iff, ht₄]
    simp
  rw [if_neg helse, endStatement_of_semicolon ht₄] at hdone
  refine ⟨.conditional c' t' .missing t₁.location, rfl, ?_⟩
  simpa using hcondition.trans (hinside.trans (.of_step (step_done hdone)))

lemma readsStatement_conditionalElse {c t e : Node} (ht₁ : t₁.lexeme = .keyword .kwIf)
    (ht₂ : t₂.lexeme = .mark .openParen) (hc : Derives (us.map (·.lexeme)) (.sum c))
    (ht₃ : t₃.lexeme = .mark .closeParen) (ht : Derives (vs.map (·.lexeme)) (.sum t))
    (ht₄ : t₄.lexeme = .keyword .kwElse) (he : Derives (ws.map (·.lexeme)) (.sum e))
    (ht₅ : t₅.lexeme = .mark .semicolon) :
    ReadsStatement functions l name statements
      (t₁ :: t₂ :: (us ++ t₃ :: (vs ++ t₄ :: (ws ++ [t₅])))) (.conditional c t e none) := by
  obtain ⟨c', rfl, hcondition⟩ := exists_reads_condition ht₁ ht₂ hc ht₃
  obtain ⟨q, t', -, rfl, hthen, hend⟩ := exists_reads_inside functions l name statements
    (.whenTrue t₁.location c') (fun p t => rfl) ht
  have hkeyword := hend t₄ (Progress.ends_of_keyword ht₄)
  rw [if_pos (Token.isKeyword_iff.mpr ht₄)] at hkeyword
  obtain ⟨q', e', -, rfl, helse, hend'⟩ := exists_reads_inside functions l name statements
    (.whenFalse t₁.location c' t') (fun p t => rfl) he
  have hdone := hend' t₅ (Progress.ends_of_semicolon ht₅)
  rw [endStatement_of_semicolon ht₅] at hdone
  refine ⟨.conditional c' t' e' t₁.location, rfl, ?_⟩
  simpa using hcondition.trans (hthen.trans (.cons (step_more hkeyword)
    (helse.trans (.of_step (step_done hdone)))))

end Reader

/-- Every statement is read as its derivation says. -/
lemma DerivesStatement.readsStatement {w : List Lexeme} {n : Node} (functions : List Function)
    (l : Option Location) (name : String) (statements : List Node) (h : DerivesStatement w n)
    {ts : List Token} (hts : ts.map (·.lexeme) = w) :
    Reader.ReadsStatement functions l name statements ts n := by
  cases h with
  | giveBack =>
    obtain ⟨t₁, ts, rfl, ht₁, hts⟩ := List.map_eq_cons_iff.mp hts
    obtain ⟨t₂, ts, rfl, ht₂, hts⟩ := List.map_eq_cons_iff.mp hts
    obtain rfl := List.map_eq_nil_iff.mp hts
    exact Reader.readsStatement_giveBack ht₁ ht₂
  | giveBackValue he =>
    obtain ⟨t₁, ts, rfl, ht₁, hts⟩ := List.map_eq_cons_iff.mp hts
    obtain ⟨us, t₂, vs, rfl, rfl, ht₂, hvs⟩ := IsRead.exists_of_map_eq hts
    obtain rfl := List.map_eq_nil_iff.mp hvs
    exact Reader.readsStatement_giveBackValue ht₁ he ht₂
  | assign he =>
    obtain ⟨t₁, ts, rfl, ht₁, hts⟩ := List.map_eq_cons_iff.mp hts
    obtain ⟨t₂, ts, rfl, ht₂, hts⟩ := List.map_eq_cons_iff.mp hts
    obtain ⟨t₃, ts, rfl, ht₃, hts⟩ := List.map_eq_cons_iff.mp hts
    obtain ⟨us, t₄, vs, rfl, rfl, ht₄, hvs⟩ := IsRead.exists_of_map_eq hts
    obtain rfl := List.map_eq_nil_iff.mp hvs
    exact Reader.readsStatement_assign ht₁ ht₂ ht₃ he ht₄
  | conditional hcondition hthen =>
    obtain ⟨t₁, ts, rfl, ht₁, hts⟩ := List.map_eq_cons_iff.mp hts
    obtain ⟨t₂, ts, rfl, ht₂, hts⟩ := List.map_eq_cons_iff.mp hts
    obtain ⟨us, t₃, ts, rfl, rfl, ht₃, hts⟩ := IsRead.exists_of_map_eq hts
    obtain ⟨vs, t₄, ts, rfl, rfl, ht₄, hts⟩ := IsRead.exists_of_map_eq hts
    obtain rfl := List.map_eq_nil_iff.mp hts
    exact Reader.readsStatement_conditional ht₁ ht₂ hcondition ht₃ hthen ht₄
  | conditionalElse hcondition hthen helse =>
    obtain ⟨t₁, ts, rfl, ht₁, hts⟩ := List.map_eq_cons_iff.mp hts
    obtain ⟨t₂, ts, rfl, ht₂, hts⟩ := List.map_eq_cons_iff.mp hts
    obtain ⟨us, t₃, ts, rfl, rfl, ht₃, hts⟩ := IsRead.exists_of_map_eq hts
    obtain ⟨vs, t₄, ts, rfl, rfl, ht₄, hts⟩ := IsRead.exists_of_map_eq hts
    obtain ⟨ws, t₅, ts, rfl, rfl, ht₅, hts⟩ := IsRead.exists_of_map_eq hts
    obtain rfl := List.map_eq_nil_iff.mp hts
    exact Reader.readsStatement_conditionalElse ht₁ ht₂ hcondition ht₃ hthen ht₄ helse ht₅

/-! ### Functions and programs -/

/-- Every row of statements is read as its derivation says. -/
lemma DerivesBody.exists_reads {w : List Lexeme} {ns : List Node} (functions : List Function)
    (l : Option Location) (name : String) (h : DerivesBody w ns) :
    ∀ (statements : List Node) (ts : List Token), ts.map (·.lexeme) = w →
      ∃ ns', ns'.map Node.bare = ns ∧ Reader.Reads ⟨functions, .body l name statements⟩ ts
        ⟨functions, .body l name (statements ++ ns')⟩ := by
  induction h with
  | nil =>
    intro statements ts hts
    obtain rfl := List.map_eq_nil_iff.mp hts
    refine ⟨[], rfl, fun rest => ?_⟩
    rw [List.append_nil]
    rfl
  | cons hfirst hrest ih =>
    intro statements ts hts
    obtain ⟨us, vs, rfl, hus, hvs⟩ := List.map_eq_append_iff.mp hts
    obtain ⟨n', rfl, hn'⟩ := hfirst.readsStatement functions l name statements hus
    obtain ⟨ns', rfl, hns'⟩ := ih (statements ++ [n']) vs hvs
    refine ⟨n' :: ns', rfl, ?_⟩
    simpa using hn'.trans hns'

/-- The first words of a function lead into its body. -/
lemma exists_reads_functionHead {header : Lexeme} {name : String} {ts : List Token}
    (functions : List Function) (hts : ts.map (·.lexeme) = functionHead header name) :
    ∃ l, Reader.Reads ⟨functions, .outside⟩ ts ⟨functions, .body l name []⟩ := by
  obtain ⟨t₁, ts, rfl, ht₁, hts⟩ := List.map_eq_cons_iff.mp hts
  obtain ⟨t₂, ts, rfl, ht₂, hts⟩ := List.map_eq_cons_iff.mp hts
  obtain ⟨t₃, ts, rfl, ht₃, hts⟩ := List.map_eq_cons_iff.mp hts
  obtain ⟨t₄, ts, rfl, ht₄, hts⟩ := List.map_eq_cons_iff.mp hts
  obtain ⟨t₅, ts, rfl, ht₅, hts⟩ := List.map_eq_cons_iff.mp hts
  obtain rfl := List.map_eq_nil_iff.mp hts
  have hname : Reader.step ⟨functions, .announced t₁.location⟩ t₂ =
      .ok ⟨functions, .named t₁.location name⟩ := by
    simp only [Reader.step, ht₂]
  exact ⟨t₁.location, .cons rfl (.cons hname (.cons (Reader.expectMark_of_lexeme ht₃)
    (.cons (Reader.expectMark_of_lexeme ht₄) (.of_step (Reader.expectMark_of_lexeme ht₅)))))⟩

/-- Every row of functions is read as its derivation says. -/
lemma DerivesFunctions.exists_readTokens {w : List Lexeme} {fs : List Function}
    (h : DerivesFunctions w fs) :
    ∀ (functions : List Function) (ts : List Token), ts.map (·.lexeme) = w →
      ∃ fs', fs'.map Function.bare = fs ∧
        Reader.readTokens ⟨functions, .outside⟩ ts = .ok ⟨functions ++ fs'⟩ := by
  induction h with
  | nil =>
    intro functions ts hts
    obtain rfl := List.map_eq_nil_iff.mp hts
    exact ⟨[], rfl, by simp [Reader.readTokens, Reader.finish]⟩
  | @unclosed header name w body hbody =>
    intro functions ts hts
    obtain ⟨us, vs, rfl, hus, hvs⟩ := List.map_eq_append_iff.mp hts
    obtain ⟨l, hhead⟩ := exists_reads_functionHead functions hus
    obtain ⟨body', rfl, hbody'⟩ := hbody.exists_reads functions l name [] vs hvs
    refine ⟨[⟨name, body', l⟩], rfl, ?_⟩
    have := hbody' []
    rw [List.append_nil] at this
    rw [hhead vs, this]
    rfl
  | @cons header name w v body fs hbody hrest ih =>
    intro functions ts hts
    obtain ⟨us', t, vs, rfl, hus', ht, hvs⟩ := IsRead.exists_of_map_eq hts
    obtain ⟨us, us'', rfl, hus, hus''⟩ := List.map_eq_append_iff.mp hus'
    obtain ⟨l, hhead⟩ := exists_reads_functionHead functions hus
    obtain ⟨body', rfl, hbody'⟩ := hbody.exists_reads functions l name [] us'' hus''
    obtain ⟨fs', rfl, hfs'⟩ := ih (functions ++ [⟨name, body', l⟩]) vs hvs
    refine ⟨⟨name, body', l⟩ :: fs', rfl, ?_⟩
    have hclose : Reader.step ⟨functions, .body l name body'⟩ t =
        .ok ⟨functions ++ [⟨name, body', l⟩], .outside⟩ := by
      simp only [Reader.step, if_pos (Token.isMark_iff.mpr ht)]
    have hall := (hhead.trans hbody').trans (Reader.Reads.of_step hclose) vs
    rw [List.append_assoc] at hall
    simpa using hall.trans hfs'

/-- Every program of the grammar is read, as the tree that the grammar gives it. -/
lemma exists_parse_of_derivesProgram {tokens : List Token} {p : Program}
    (h : DerivesProgram tokens p) : ∃ q, parse tokens = .ok q ∧ q.bare = p := by
  obtain ⟨fs', hfs', hread⟩ := DerivesFunctions.exists_readTokens h [] tokens rfl
  refine ⟨⟨fs'⟩, hread, ?_⟩
  rw [Program.bare, hfs']

/-- Reading accepts the rows of tokens that the grammar derives, with the tree that the grammar
assigns, and complains about a token or about the end of the tokens otherwise. Each row of tokens
has at most one tree. -/
theorem parse_eq_ok_iff_derives (tokens : List Token) :
    (∀ p, (parse tokens).map Program.bare = .ok p ↔ DerivesProgram tokens p) ∧
    ((¬ ∃ p, DerivesProgram tokens p) →
      (∃ t expected, parse tokens = .error (.unexpectedToken t expected)) ∨
        ∃ expected, parse tokens = .error (.unexpectedEnd expected)) ∧
    ∀ p q, DerivesProgram tokens p → DerivesProgram tokens q → p = q := by
  have hiff : ∀ p, (parse tokens).map Program.bare = .ok p ↔ DerivesProgram tokens p := by
    intro p
    constructor
    · intro h
      cases hparse : parse tokens with
      | error e =>
        rw [hparse] at h
        cases h
      | ok q =>
        rw [hparse] at h
        cases h
        exact derivesProgram_of_parse hparse
    · intro h
      obtain ⟨q, hparse, rfl⟩ := exists_parse_of_derivesProgram h
      rw [hparse]
      rfl
  refine ⟨hiff, fun hnone => ?_, fun p q hp hq => ?_⟩
  · cases hparse : parse tokens with
    | ok p => exact absurd ⟨p.bare, derivesProgram_of_parse hparse⟩ hnone
    | error e =>
      cases e with
      | unexpectedToken t expected => exact .inl ⟨t, expected, rfl⟩
      | unexpectedEnd expected => exact .inr ⟨expected, rfl⟩
  · have hp := (hiff p).mpr hp
    rw [(hiff q).mpr hq] at hp
    cases hp
    rfl

end TinyCompiler
