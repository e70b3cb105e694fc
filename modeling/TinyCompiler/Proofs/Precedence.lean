import TinyCompiler.Proofs.Completeness

/-!
# How far an expression goes

Reading an expression takes the tokens that belong to it and stops before the others. Which tokens
belong to it depends on the least power that its operators must have. The tokens taken are always an
expression of the level of that power, and what follows them could not have gone on with it
(`EndsBefore`); conversely, every expression of the level is taken as a whole where that is so. With
a greater power reading goes the same way and stops at the same token or before it.
-/

namespace TinyCompiler

/-! ### Where an expression ends -/

/-- The tokens that are left cannot go on with an expression that has been read. -/
structure EndsBefore (least : Int) (used rest : List Token) : Prop where
  /-- An operator that follows binds its left operand less tightly than `least`. -/
  operator : ∀ t ∈ rest.head?, ∀ left right, t.kind.betweenPowers? = some (left, right) →
    left < least
  /-- No opening parenthesis follows a name. -/
  parenthesis : ∀ u ∈ used.getLast?, ∀ t ∈ rest.head?, u.kind = .identifier →
    t.kind ≠ .mark .openParen

namespace Progress

variable {least least' : Int} {p q : Progress} {operand e : Node} {stack : List Pending}
  {t : Token} {ts rest : List Token}

/-- The reading of an expression ends where it stands, with the given tokens left. -/
def StopsAt (least : Int) (p : Progress) (e : Node) : List Token → Prop
  | [] => p.finish = .ok e
  | t :: _ => p.step least t = .ok (.done e)

/-- Reading takes tokens that belong to the expression and stops before the others. -/
lemma read_eq_ok_iff : p.read least ts = .ok (e, rest) ↔
    ∃ used q, ts = used ++ rest ∧ Reads least p used q ∧ q.StopsAt least e rest := by
  constructor
  · intro h
    induction ts generalizing p with
    | nil =>
      cases hfinish : p.finish with
      | error error =>
        rw [read, hfinish] at h
        cases h
      | ok whole =>
        rw [read, hfinish] at h
        cases h
        exact ⟨[], p, rfl, .refl p, hfinish⟩
    | cons t ts ih =>
      rw [read] at h
      split at h
      next p' hp' =>
        obtain ⟨used, q, rfl, hreads, hstops⟩ := ih h
        exact ⟨t :: used, q, rfl, .cons hp' hreads, hstops⟩
      next whole hwhole =>
        cases h
        exact ⟨[], p, rfl, .refl p, hwhole⟩
      next => cases h
  · rintro ⟨used, q, rfl, hreads, hstops⟩
    rw [hreads.read]
    cases rest with
    | nil =>
      rw [read, show q.finish = .ok e from hstops]
      rfl
    | cons t rest => rw [read, show q.step least t = .ok (.done e) from hstops]

/-- An expression that may end with the tokens may also end before any token that ends one. -/
lemma step_of_finish (h : p.finish = .ok e) (ht : Ends t) : p.step least t = .ok (.done e) := by
  cases hp : p.operand? with
  | none => cases p <;> cases hp <;> cases h
  | some top =>
    obtain ⟨operand, stack⟩ := top
    rw [finish_of_operand? hp, finishReached] at h
    rw [step_of_ends hp ht, onDelimiter]
    split at h
    next => cases h
    next => cases h
    next whole below hgroup hargument hclose =>
      cases h
      rfl

/-- Only after an operand can an expression end. -/
lemma exists_operand?_of_done (h : p.step least t = .ok (.done e)) :
    ∃ operand stack, p.operand? = some (operand, stack) := by
  cases p with
  | awaiting stack =>
    obtain ⟨q, -, hq⟩ := exists_of_map_more h
    cases hq
  | opened name l stack =>
    simp only [step] at h
    split at h
    next => cases h
    next =>
      obtain ⟨q, -, hq⟩ := exists_of_map_more h
      cases hq
  | named name l stack => exact ⟨_, _, rfl⟩
  | reached operand stack => exact ⟨_, _, rfl⟩

lemma operator?_eq_some_iff {op : Op} :
    operator? t = some op ↔ ∃ m, t.lexeme = .mark m ∧ m.op? = some op := by
  rw [operator?]
  cases t.lexeme <;> simp

/-- An operator is a token that has powers between two operands. -/
lemma betweenPowers?_eq_some_iff {left right : Int} :
    t.kind.betweenPowers? = some (left, right) ↔
      ∃ op, operator? t = some op ∧ op.leftPower = left ∧ op.rightPower = right := by
  rw [Token.kind, operator?]
  cases t.lexeme <;> simp [Lexeme.kind, TokenKind.betweenPowers?]

/-- An operator before which an expression ends binds less tightly than `least`. -/
lemma leftPower_lt_of_done {op : Op} (h : p.step least t = .ok (.done e))
    (hop : operator? t = some op) : op.leftPower < least := by
  obtain ⟨operand, stack, hp⟩ := exists_operand?_of_done h
  have hparen : t.lexeme ≠ .mark .openParen := by
    obtain ⟨m, hm, hop'⟩ := operator?_eq_some_iff.mp hop
    rw [hm]
    rintro ⟨⟩
    cases hop'
  rw [step_of_operand? hp hparen, onReached, hop] at h
  have hdone : onOperator least operand stack op = .done e := Except.ok.inj h
  rw [onOperator] at hdone
  split at hdone
  next left hclose =>
    split at hdone
    next hlt => exact hlt
    next => cases hdone
  next => cases hdone

/-! ### Names at the end -/

/-- The token taken last was a name. -/
def IsNamed : Progress → Prop
  | .named .. => True
  | _ => False

lemma isNamed_of_onAwaiting (h : onAwaiting stack t = .ok q) :
    q.IsNamed ↔ t.kind = .identifier := by
  rw [onAwaiting] at h
  split at h
  next value ht =>
    cases h
    simp [IsNamed, Token.kind, ht, Lexeme.kind]
  next name ht =>
    cases h
    simp [IsNamed, Token.kind, ht, Lexeme.kind]
  next ht =>
    cases h
    simp [IsNamed, Token.kind, ht, Lexeme.kind]
  next ht =>
    cases h
    simp [IsNamed, Token.kind, ht, Lexeme.kind]
  next => cases h

/-- After an operand only marks go on with an expression. -/
lemma isNamed_of_onReached (h : onReached least operand stack t = .ok (.more q)) :
    q.IsNamed ↔ t.kind = .identifier := by
  have hnot : ∀ m : Mark, t.lexeme = .mark m → ¬ t.kind = .identifier := by
    intro m hm
    simp [Token.kind, hm, Lexeme.kind]
  rw [onReached] at h
  split at h
  next op hop =>
    obtain ⟨m, hm, -⟩ := operator?_eq_some_iff.mp hop
    have hmore : onOperator least operand stack op = .more q := Except.ok.inj h
    rw [onOperator] at hmore
    split at hmore
    · split at hmore <;> cases hmore
      exact iff_of_false id (hnot m hm)
    · cases hmore
      exact iff_of_false id (hnot m hm)
  next =>
    rw [onDelimiter] at h
    split at h
    · split at h <;> cases h
      next hmark => exact iff_of_false id (hnot _ (Token.isMark_iff.mp hmark))
    · split at h
      next hmark =>
        cases h
        exact iff_of_false id (hnot _ (Token.isMark_iff.mp hmark))
      next =>
        split at h <;> cases h
        next hmark => exact iff_of_false id (hnot _ (Token.isMark_iff.mp hmark))
    · cases h

lemma isNamed_of_step (h : p.step least t = .ok (.more q)) :
    q.IsNamed ↔ t.kind = .identifier := by
  cases p with
  | awaiting stack =>
    obtain ⟨q', hq', hmore⟩ := exists_of_map_more h
    cases hmore
    exact isNamed_of_onAwaiting hq'
  | named name l stack =>
    simp only [step] at h
    split at h
    next hmark =>
      cases h
      simp [IsNamed, Token.kind, Token.isMark_iff.mp hmark, Lexeme.kind]
    next => exact isNamed_of_onReached h
  | opened name l stack =>
    simp only [step] at h
    split at h
    next hmark =>
      cases h
      simp [IsNamed, Token.kind, Token.isMark_iff.mp hmark, Lexeme.kind]
    next =>
      obtain ⟨q', hq', hmore⟩ := exists_of_map_more h
      cases hmore
      exact isNamed_of_onAwaiting hq'
  | reached operand stack => exact isNamed_of_onReached h

/-- Reading stands after a name exactly if the last token was one. -/
lemma Reads.isNamed_iff (h : Reads least p ts q) (ht : t ∈ ts.getLast?) :
    q.IsNamed ↔ t.kind = .identifier := by
  induction h with
  | refl p => cases ht
  | @cons p p' q t' ts hstep hrest ih =>
    cases hrest with
    | refl =>
      obtain rfl : t' = t := by simpa using ht
      exact isNamed_of_step hstep
    | @cons _ p'' _ t'' ts hstep' hrest' => exact ih (by simpa using ht)

/-- A parenthesis after a name goes on with the expression. -/
lemma not_isNamed_of_done (h : p.step least t = .ok (.done e)) (ht : t.kind = .mark .openParen) :
    ¬ p.IsNamed := by
  intro hp
  cases p with
  | named name l stack =>
    have hmark : t.isMark .openParen = true := by simp [Token.isMark, ht]
    simp only [step, if_pos hmark] at h
    cases h
  | awaiting stack => exact hp
  | opened name l stack => exact hp
  | reached operand stack => exact hp

end Progress

/-! ### What is taken is an expression -/

namespace Progress

variable {least : Int} {p q : Progress} {e : Node} {w : List Lexeme} {used rest ts : List Token}

lemma Spells.reads (h : p.Spells least w) (hreads : Reads least p ts q) :
    q.Spells least (w ++ ts.map (·.lexeme)) := by
  induction hreads generalizing w with
  | refl p => simpa using h
  | cons hstep hrest ih => simpa using ih (h.step hstep)

/-- When reading stops, the words taken are an expression of the level. -/
lemma Spells.stopsAt (h : p.Spells least w) (hstops : p.StopsAt least e rest) :
    Derives w (.level least e.bare) := by
  cases rest with
  | nil =>
    -- the tokens might as well have gone on with a semicolon
    have hsemicolon : Ends ⟨.mark .semicolon, none⟩ := ends_of_semicolon rfl
    exact h.step (step_of_finish hstops hsemicolon)
  | cons t rest => exact h.step hstops

/-- When reading stops, what is left cannot go on with the expression. -/
lemma StopsAt.endsBefore (hreads : Reads least p used q) (hstops : q.StopsAt least e rest) :
    EndsBefore least used rest := by
  cases rest with
  | nil => exact ⟨by simp, by simp⟩
  | cons next rest =>
    refine ⟨?_, ?_⟩
    · rintro t ⟨⟩ left right hpowers
      obtain ⟨op, hop, rfl, -⟩ := betweenPowers?_eq_some_iff.mp hpowers
      exact leftPower_lt_of_done hstops hop
    · rintro u hu t ⟨⟩ hname hparen
      exact not_isNamed_of_done hstops hparen ((hreads.isNamed_iff hu).mpr hname)

end Progress

/-! ### Expressions are taken as a whole -/

/-- The words of an expression of a level lead to an operand that makes the expression, if operators
are closed for any one that does not belong to the level. -/
lemma Derives.exists_reaches {least : Int} {ts : List Token} {e : Node}
    (h : Derives (ts.map (·.lexeme)) (.level least e)) :
    ∃ power, 0 ≤ power ∧ (∀ op : Op, op.leftPower < least → op.leftPower ≤ power) ∧
      Reaches least power [] ts e := by
  rw [Phrase.level] at h
  split at h
  next hsum => exact ⟨1, by decide, fun op hop => by omega, h.isRead least ts [] rfl hsum⟩
  next hsum =>
    split at h
    next hproduct => exact ⟨3, by decide, fun op hop => by omega, h.isRead least ts [] rfl hproduct⟩
    next =>
      refine ⟨4, by decide, fun op hop => ?_, h.isRead least ts [] rfl⟩
      cases op <;> decide

namespace Progress

variable {least power : Int} {p : Progress} {operand e : Node} {stack : List Pending}
  {used rest : List Token}

/-- After the words of an expression, reading stops before what cannot go on with it. -/
lemma stopsAt_of_endsBefore (hp : p.operand? = some (operand, stack)) (hpower : 0 ≤ power)
    (hops : ∀ op : Op, op.leftPower < least → op.leftPower ≤ power)
    (hclose : ∀ j ≤ power, closeAbove j operand stack = (e, []))
    (hoperator : ∀ t ∈ rest.head?, ∀ op, operator? t = some op → op.leftPower < least)
    (hname : ∀ t ∈ rest.head?, t.lexeme = .mark .openParen → ¬ p.IsNamed) :
    p.StopsAt least e rest := by
  have hall : closeOperators operand stack = (e, []) := by
    rw [closeOperators_eq_closeAbove, hclose 0 hpower]
  cases rest with
  | nil =>
    show p.finish = _
    rw [finish_of_operand? hp, finishReached, hall]
  | cons t rest =>
    show p.step least t = _
    have hstep : p.step least t = onReached least operand stack t := by
      by_cases hparen : t.lexeme = .mark .openParen
      · cases p with
        | reached operand' stack' =>
          cases hp
          rfl
        | named name l stack' => exact absurd trivial (hname t rfl hparen)
        | awaiting stack' => cases hp
        | opened name l stack' => cases hp
      · exact step_of_operand? hp hparen
    rw [hstep, onReached]
    cases hop : operator? t with
    | none => simp only [onDelimiter, hall]
    | some op =>
      have hlt := hoperator t rfl op hop
      simp only [onOperator, hclose _ (hops op hlt), if_pos hlt]

end Progress

/-- An expression of a level is taken as a whole where nothing goes on with it. -/
lemma Derives.exists_readExpression_append {least : Int} {used rest : List Token} {e : Node}
    (h : Derives (used.map (·.lexeme)) (.level least e)) (hend : EndsBefore least used rest) :
    ∃ e', e'.bare = e ∧ readExpression least (used ++ rest) = .ok (e', rest) := by
  obtain ⟨power, hpower, hops, q, operand, below, e', hreads, hq, he', hclose⟩ := h.exists_reaches
  refine ⟨e', he', Progress.read_eq_ok_iff.mpr ⟨used, q, rfl, hreads, ?_⟩⟩
  refine Progress.stopsAt_of_endsBefore hq hpower hops hclose ?_ ?_
  · intro t ht op hop
    exact hend.operator t ht _ _ (Progress.betweenPowers?_eq_some_iff.mpr ⟨op, hop, rfl, rfl⟩)
  · intro t ht hparen hnamed
    have hne : used ≠ [] := by simpa using h.ne_nil
    have hlast : used.getLast hne ∈ used.getLast? := List.getLast?_eq_some_getLast hne
    refine hend.parenthesis _ hlast t ht ((hreads.isNamed_iff hlast).mp hnamed) ?_
    rw [Token.kind, hparen, Lexeme.kind]

/-! ### Greater powers -/

namespace Progress

variable {least least' : Int} {p : Progress} {operand e : Node} {stack : List Pending} {t : Token}
  {ts rest : List Token}

/-- A token does the same for a greater power, unless it then ends the expression. -/
lemma step_of_le (h : least ≤ least') (p : Progress) (t : Token) :
    p.step least' t = p.step least t ∨ ∃ e, p.step least' t = .ok (.done e) := by
  have hreached : ∀ operand stack,
      onReached least' operand stack t = onReached least operand stack t ∨
        ∃ e, onReached least' operand stack t = .ok (.done e) := by
    intro operand stack
    rw [onReached, onReached]
    cases operator? t with
    | none => exact .inl rfl
    | some op =>
      rcases hclose : closeAbove op.leftPower operand stack with ⟨left, _ | ⟨top, below⟩⟩
      · by_cases hlt : op.leftPower < least'
        · exact .inr ⟨left, by simp only [onOperator, hclose, if_pos hlt]⟩
        · have hlt' : ¬ op.leftPower < least := by omega
          exact .inl (by simp only [onOperator, hclose, if_neg hlt, if_neg hlt'])
      · exact .inl (by simp only [onOperator, hclose])
  cases p with
  | awaiting stack => exact .inl rfl
  | opened name l stack => exact .inl rfl
  | named name l stack =>
    by_cases hmark : t.isMark .openParen = true
    · exact .inl (by simp only [step, if_pos hmark])
    · simpa only [step, if_neg hmark] using hreached _ _
  | reached operand stack => exact hreached operand stack

/-- With a greater power an expression is read as well, and at least as much is left. -/
lemma exists_read_of_le (h : least ≤ least') (hread : p.read least ts = .ok (e, rest)) :
    ∃ e' rest', p.read least' ts = .ok (e', rest') ∧ rest <:+ rest' := by
  induction ts generalizing p with
  | nil => exact ⟨e, rest, hread, List.suffix_rfl⟩
  | cons t ts ih =>
    rcases step_of_le h p t with hsame | ⟨e', hdone⟩
    · rw [read, hsame]
      rw [read] at hread
      split at hread
      next p' hp' => exact ih hread
      next whole hwhole =>
        cases hread
        exact ⟨e, _, rfl, List.suffix_rfl⟩
      next => cases hread
    · -- reading ends here, and whatever was read before goes at least up to here
      obtain ⟨used, q, hts, -, -⟩ := read_eq_ok_iff.mp hread
      refine ⟨e', t :: ts, by rw [read, hdone], ?_⟩
      rw [hts]
      exact List.suffix_append used rest

end Progress

/-- Reading an expression takes the longest expression of its level: the tokens taken are one, what
is left cannot go on with it, and all such tokens are taken. Whatever is read with some power is
read with every greater power as well, if only in part. -/
theorem readExpression_eq_ok_iff (least : Int) (tokens : List Token) :
    (∀ e rest, (readExpression least tokens).map (fun read => (read.1.bare, read.2)) =
        .ok (e, rest) ↔
      ∃ used, tokens = used ++ rest ∧ Derives (used.map (·.lexeme)) (.level least e) ∧
        EndsBefore least used rest) ∧
    ∀ least' e rest, least ≤ least' → readExpression least tokens = .ok (e, rest) →
      ∃ e' used used' rest', readExpression least' tokens = .ok (e', rest') ∧
        tokens = used ++ rest ∧ tokens = used' ++ rest' ∧ used' <+: used := by
  refine ⟨fun e rest => ⟨fun h => ?_, ?_⟩, fun least' e rest hle hread => ?_⟩
  · cases hread : readExpression least tokens with
    | error error =>
      rw [hread] at h
      cases h
    | ok read =>
      rw [hread] at h
      cases h
      obtain ⟨used, q, htokens, hreads, hstops⟩ := Progress.read_eq_ok_iff.mp hread
      have hstart : Progress.start.Spells least [] := .awaiting .nil
      exact ⟨used, htokens, by simpa using (hstart.reads hreads).stopsAt hstops,
        hstops.endsBefore hreads⟩
  · rintro ⟨used, rfl, hderives, hend⟩
    obtain ⟨e', rfl, hread⟩ := hderives.exists_readExpression_append hend
    rw [hread]
    rfl
  · obtain ⟨e', rest', hread', hsuffix⟩ := Progress.exists_read_of_le hle hread
    obtain ⟨used', q, htokens', -, -⟩ := Progress.read_eq_ok_iff.mp hread'
    obtain ⟨more, rfl⟩ := hsuffix
    refine ⟨e', used' ++ more, used', more ++ rest, hread', ?_, htokens', List.prefix_append _ _⟩
    rw [htokens', List.append_assoc]

/-- The tokens of `x-f(y)*z;`. -/
def differenceTokens : List Token :=
  [.identifier "x", .mark .minus, .identifier "f", .mark .openParen, .identifier "y",
    .mark .closeParen, .mark .star, .identifier "z", .mark .semicolon].map (⟨·, none⟩)

/-- The whole difference is read with power 0, its left side with power 2. -/
theorem readExpression_eq_ok_iff_difference :
    ∃ e e', readExpression 0 differenceTokens = .ok (e, differenceTokens.drop 8) ∧
      Derives ((differenceTokens.take 8).map (·.lexeme)) (.level 0 e.bare) ∧
      EndsBefore 0 (differenceTokens.take 8) (differenceTokens.drop 8) ∧
      readExpression 2 differenceTokens = .ok (e', differenceTokens.drop 1) ∧
      ∃ used used', differenceTokens = used ++ differenceTokens.drop 8 ∧
        differenceTokens = used' ++ differenceTokens.drop 1 ∧ used' <+: used := by
  obtain ⟨hread, hgreater⟩ := readExpression_eq_ok_iff 0 differenceTokens
  obtain ⟨used, hused, hderives, hend⟩ := (hread _ (differenceTokens.drop 8)).mp rfl
  obtain rfl : used = differenceTokens.take 8 :=
    List.append_cancel_right (hused.symm.trans (List.take_append_drop 8 differenceTokens).symm)
  obtain ⟨e', used, used', rest', hread', hused, hused', hprefix⟩ :=
    hgreater 2 _ (differenceTokens.drop 8) (by decide) rfl
  obtain ⟨rfl, rfl⟩ := Prod.mk.inj (Except.ok.inj hread')
  exact ⟨_, _, rfl, hderives, hend, rfl, used, used', hused, hused', hprefix⟩

end TinyCompiler
