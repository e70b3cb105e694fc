import TinyCompiler.Program.Descent
import TinyCompiler.Proofs.Lookahead
import TinyCompiler.Proofs.Lowering

/-!
# Calls and stacks

An expression is read in two ways: by functions that call each other and look ahead in a stream, and
by taking one token after the other and keeping a stack of what is still open. The stack stands for
the calls. Where it awaits an operand, it does what the function that reads an expression does, and
goes on with the rest of the stream where the function has left it, whatever lies below on the stack
(`TokenMachine.Holds.run_expression`); the operators that the function takes are those that bind at
least as tightly as the top of the stack.

This holds inside everything that takes token after token and reads an expression on the way. The
simplest case is an expression that is read alone, with the tokens that follow it
(`Stream.readLeading_list`).
-/

namespace TinyCompiler

/-- Results that come from the same place are the same if they are so wherever it gives something. -/
lemma bind_congr_of_ok {ε α β : Type} {x : Except ε α} {f g : α → Except ε β}
    (h : ∀ a, x = .ok a → f a = g a) : x >>= f = x >>= g := by
  cases x with
  | error e => rfl
  | ok a => exact h a rfl

namespace Stream

/-! ### Uses of a stream -/

section Uses

variable {s s' : Stream} {α β : Type} {t : Token}

/-- What is done with the result of a use, and with the stream after it. -/
lemma use_bind (s : Stream) (u : Use α) (f : α → Stream → Except Failure β) :
    (s.use u >>= fun r => f r.value r.rest) = (u s).1 >>= fun a => f a (u s).2 := by
  rw [use]
  split
  next a ha =>
    show f a (u s).2 = _
    rw [ha]
    rfl
  next e he =>
    rw [he]
    rfl

/-- A token comes next. -/
def ComesNext (s : Stream) (t : Token) : Prop := ∃ s', s.peek = (.ok (some t), s')

/-- Looking finds a token, or it finds the end, or it meets a fault. -/
lemma peek_cases (s : Stream) :
    (∃ t feed, s.peek = (.ok (some t), ⟨feed, some (some t)⟩)) ∨
    (∃ feed, s.peek = (.ok none, ⟨feed, some none⟩)) ∨
    ∃ e feed, s.peek = (.error e, ⟨feed, none⟩) := by
  obtain ⟨feed, ahead⟩ := s
  rcases ahead with _ | _ | t
  · rcases hnext : feed.next with ⟨e | _ | t, feed'⟩
    · exact .inr (.inr ⟨.scan e, feed', by simp only [peek, hnext]⟩)
    · exact .inr (.inl ⟨feed', by simp only [peek, hnext]⟩)
    · exact .inl ⟨t, feed', by simp only [peek, hnext]⟩
  · exact .inr (.inl ⟨feed, rfl⟩)
  · exact .inl ⟨t, feed, rfl⟩

/-- What looking finds stays there. -/
lemma peek_of_peek {next : Option Token} (h : s.peek = (.ok next, s')) :
    s'.peek = (.ok next, s') := by
  rw [peek, ahead_of_peek h]

/-- A use that only looks. -/
def Looks (u : Use α) : Prop := ∃ f : Option Token → α, ∀ s, u s = s.peek.map (·.map f) id

lemma looks_peek : Looks peek := by
  refine ⟨id, fun s => ?_⟩
  cases hpeek : s.peek with | mk result s₁ =>
  cases result <;> rfl

lemma looks_atEnd : Looks atEnd := ⟨(·.isNone), fun _ => rfl⟩

lemma looks_check (kinds : List TokenKind) : Looks (check kinds) := ⟨_, fun _ => rfl⟩

/-- Takes the next token, which must be there, and makes something of it. -/
def demand (lack : ParseError) (f : Token → Except ParseError α) : Use α := fun s =>
  match s.next with
  | (.ok (some t), s) => ((f t).mapError .parse, s)
  | (.ok none, s) => (.error (.parse lack), s)
  | (.error e, s) => (.error e, s)

lemma expectNext_eq_demand (expected : Option String) (s : Stream) :
    s.expectNext expected = s.demand (.unexpectedEnd expected) .ok := rfl

lemma expect_eq_demand (kind : TokenKind) {expected : String} (h : expected ≠ "") (s : Stream) :
    s.expect kind (some expected) = s.demand (.unexpectedEnd (some expected)) fun t =>
      if t.kind = kind then .ok t else .error (.unexpectedToken t (some expected)) := by
  rw [expect_eq, Call.description, if_neg h, expectNext, demand]
  rcases s.next with ⟨e | _ | t, s₁⟩
  · rfl
  · rfl
  · by_cases hkind : t.kind = kind <;> simp only [hkind] <;> rfl

lemma expectIdentifier_eq_demand {expected : String} (h : expected ≠ "") (s : Stream) :
    s.expectIdentifier expected = s.demand (.unexpectedEnd (some expected)) fun t =>
      match t.lexeme with
      | .identifier name => .ok name
      | _ => .error (.unexpectedToken t (some expected)) := by
  rw [expectIdentifier, expect_eq_demand .identifier h, demand, demand]
  rcases s.next with ⟨e | _ | ⟨lexeme, l⟩, s₁⟩
  · rfl
  · rfl
  · cases lexeme <;> rfl

end Uses

end Stream

/-! ### Machines -/

/-- Something that takes one token after the other, and gives a result when they end. -/
structure TokenMachine (σ β : Type) where
  step : σ → Token → Except ParseError σ
  finish : σ → Except ParseError β

namespace TokenMachine

variable {σ β α : Type} {m : TokenMachine σ β} {q q₁ q₂ : σ} {s : Stream} {u : Stream.Use α}

/-- Takes all tokens of a stream. -/
def run (m : TokenMachine σ β) (q : σ) (s : Stream) : Except Failure β := do
  let ⟨next, s₁, h⟩ ← s.use Stream.next
  match next, h with
  | none, _ => (m.finish q).mapError .parse
  | some t, _ =>
    let q ← (m.step q t).mapError .parse
    run m q s₁
termination_by s.size
decreasing_by grind

/-- What a machine makes of the next token, or of the end. -/
def take (m : TokenMachine σ β) (q : σ) (next : Option Token) (s : Stream) : Except Failure β :=
  match next with
  | none => (m.finish q).mapError .parse
  | some t => (m.step q t).mapError .parse >>= fun q => m.run q s

lemma run_eq (m : TokenMachine σ β) (q : σ) (s : Stream) :
    m.run q s = s.next.1 >>= fun next => m.take q next s.next.2 := by
  rw [run, ← Stream.use_bind s Stream.next (m.take q)]
  refine bind_congr ?_
  rintro ⟨_ | t, s₁, h⟩ <;> rfl

/-- Machines that do the same with what comes next do the same from there on. -/
lemma run_congr (hstep : ∀ t, s.ComesNext t → m.step q t = m.step q₁ t)
    (hfinish : s.peek.1 = .ok none → m.finish q = m.finish q₁) : m.run q s = m.run q₁ s := by
  rw [run_eq, run_eq]
  refine bind_congr_of_ok fun next hnext => ?_
  cases next with
  | none => rw [take, take, hfinish hnext]
  | some t => rw [take, take, hstep t ⟨_, Prod.ext hnext rfl⟩]

/-- Looking changes nothing. -/
lemma run_of_looks (hu : Stream.Looks u) : m.run q s = s.use u >>= fun r => m.run q r.rest := by
  obtain ⟨f, hu⟩ := hu
  rw [Stream.use_bind s u fun _ s' => m.run q s', hu, run_eq]
  cases hpeek : s.peek with | mk result s₁ =>
  cases result with
  | error e =>
    rw [Stream.next, hpeek]
    rfl
  | ok next =>
    show _ = m.run q s₁
    rw [run_eq, Stream.next, Stream.next, hpeek, Stream.peek_of_peek hpeek]

/-- A token that is demanded is the next one that a machine takes. -/
lemma run_of_demand {lack : ParseError} {f : Token → Except ParseError α}
    {g : α → Except ParseError σ} (hu : u s = s.demand lack f) (hfinish : m.finish q = .error lack)
    (hstep : ∀ t, s.ComesNext t → m.step q t = f t >>= g) :
    m.run q s = s.use u >>= fun r =>
      (g r.value).mapError .parse >>= fun q => m.run q r.rest := by
  rw [Stream.use_bind s u fun a s' => (g a).mapError .parse >>= fun q => m.run q s', hu, run_eq,
    Stream.demand, Stream.next]
  rcases hpeek : s.peek with ⟨e | _ | t, s₁⟩
  · rfl
  · show (m.finish q).mapError _ = _
    rw [hfinish]
    rfl
  · show (m.step q t).mapError _ >>= _ = (f t).mapError .parse >>= fun a =>
      (g a).mapError .parse >>= fun q => m.run q ⟨s₁.feed, none⟩
    rw [hstep t ⟨s₁, hpeek⟩]
    cases f t <;> rfl

/-- Where any token will do, the machine decides what to do with it. -/
lemma run_of_expectNext {words : Option String}
    (hfinish : m.finish q = .error (.unexpectedEnd words)) :
    m.run q s = s.use (Stream.expectNext words) >>= fun r =>
      (m.step q r.value).mapError .parse >>= fun q => m.run q r.rest :=
  run_of_demand (Stream.expectNext_eq_demand words s) hfinish fun _ _ => rfl

/-- Where a mark must come, it is taken. -/
lemma run_of_expect {mark : Mark} {words : String} (hwords : words ≠ "")
    (hfinish : m.finish q = .error (.unexpectedEnd (some words)))
    (hstep : ∀ t, s.ComesNext t → m.step q t =
      if t.isMark mark then .ok q₁ else .error (.unexpectedToken t (some words))) :
    m.run q s = s.use (Stream.expect (.mark mark) (some words)) >>= fun r => m.run q₁ r.rest := by
  refine run_of_demand (g := fun _ => .ok q₁) (Stream.expect_eq_demand _ hwords s) hfinish
    fun t ht => ?_
  rw [hstep t ht, Token.isMark]
  by_cases hkind : t.kind = .mark mark
  · rw [if_pos hkind, if_pos (beq_iff_eq.mpr hkind)]
    rfl
  · rw [if_neg hkind, if_neg (mt beq_iff_eq.mp hkind)]
    rfl

/-- Where a name must come, it is taken. -/
lemma run_of_expectIdentifier {words : String} {g : String → σ} (hwords : words ≠ "")
    (hfinish : m.finish q = .error (.unexpectedEnd (some words)))
    (hstep : ∀ t, m.step q t =
      match t.lexeme with
      | .identifier name => .ok (g name)
      | _ => .error (.unexpectedToken t (some words))) :
    m.run q s =
      s.use (Stream.expectIdentifier words) >>= fun r => m.run (g r.value) r.rest := by
  refine run_of_demand (g := fun name => .ok (g name))
    (Stream.expectIdentifier_eq_demand hwords s) hfinish fun t _ => ?_
  rw [hstep t]
  cases t.lexeme <;> rfl

/-- A token of a kind that makes a difference is taken, and any other is left. -/
lemma run_of_takeIf {kind : TokenKind} (hfinish : m.finish q = m.finish q₂)
    (htake : ∀ t, s.ComesNext t → t.kind = kind → m.step q t = .ok q₁)
    (hleave : ∀ t, s.ComesNext t → t.kind ≠ kind → m.step q t = m.step q₂ t) :
    m.run q s = s.use (Stream.takeIf [kind]) >>= fun r =>
      m.run (if r.value.isSome then q₁ else q₂) r.rest := by
  rw [Stream.use_bind s (Stream.takeIf [kind]) fun value s' =>
    m.run (if value.isSome then q₁ else q₂) s']
  rcases s.peek_cases with ⟨t, feed, hpeek⟩ | ⟨feed, hpeek⟩ | ⟨e, feed, hpeek⟩
  · have hnext : s.ComesNext t := ⟨_, hpeek⟩
    rw [Stream.takeIf_of_peek hpeek, run_eq, Stream.next_of_peek hpeek]
    by_cases hkind : t.kind = kind
    · rw [if_pos (by simpa using hkind)]
      show (m.step q t).mapError _ >>= _ = _
      rw [htake t hnext hkind]
      rfl
    · rw [if_neg (by simpa using hkind)]
      show (m.step q t).mapError _ >>= _ = m.run q₂ ⟨feed, some (some t)⟩
      rw [hleave t hnext hkind, run_eq]
      rfl
  · rw [Stream.takeIf_of_peek hpeek, run_eq, Stream.next_of_peek hpeek]
    show (m.finish q).mapError _ = m.run q₂ ⟨feed, some none⟩
    rw [hfinish, run_eq]
    rfl
  · rw [run_eq, Stream.next, hpeek, Stream.takeIf, Stream.check, hpeek]
    rfl

/-- A token that has been looked at is taken. -/
lemma run_of_next {t : Token} (ht : s.ComesNext t) (hstep : m.step q t = .ok q₁) :
    m.run q s = s.use Stream.next >>= fun r => m.run q₁ r.rest := by
  obtain ⟨s₁, hpeek⟩ := ht
  rw [Stream.use_bind s Stream.next fun _ s' => m.run q₁ s', run_eq, Stream.next, hpeek]
  show (m.step q t).mapError _ >>= _ = _
  rw [hstep]
  rfl

end TokenMachine

/-! ### Where an expression ends -/

namespace Stream

variable {s s' : Stream} {least : Int} {t : Token}

/-- No operator comes next that binds at least as tightly as `least`. -/
def StopsAt (s : Stream) (least : Int) : Prop :=
  ∀ t op, s.ComesNext t → Progress.operator? t = some op → op.leftPower < least

/-- What looking finds is what comes next. -/
lemma eq_some_of_comesNext {next : Option Token} (h : s.peek = (.ok next, s'))
    (ht : s'.ComesNext t) : next = some t := by
  obtain ⟨s₁, hs₁⟩ := ht
  cases (peek_of_peek h).symm.trans hs₁
  rfl

lemma comesNext_of_expectNext {expected : Option String}
    (h : s.expectNext expected = (.ok t, s')) : s.ComesNext t := by
  rw [expectNext] at h
  split at h
  next s₁ hnext =>
    cases h
    exact ⟨s.peek.2, Prod.ext (show s.next.1 = _ by rw [hnext]) rfl⟩
  next => cases h
  next => cases h

/-- Reading on after an operand stops where no operator of sufficient power comes. -/
lemma stopsAt_of_readOperators {s : Stream} {left : Node} {r : Taken 0 Node s}
    (h : s.readOperators least left = .ok r) : r.rest.StopsAt least := by
  rw [readOperators] at h
  obtain ⟨⟨_ | t, s₁, hpeek⟩, -, h⟩ := bind_eq_ok_iff.mp h
  · cases h
    intro t op ht
    cases eq_some_of_comesNext hpeek ht
  · dsimp only at h
    split at h
    next hop =>
      cases h
      intro t' op' ht' hop'
      cases eq_some_of_comesNext hpeek ht'
      cases hop.symm.trans hop'
    next op hop =>
      split at h
      next hlt =>
        cases h
        intro t' op' ht' hop'
        cases eq_some_of_comesNext hpeek ht'
        cases hop.symm.trans hop'
        exact hlt
      next =>
        obtain ⟨⟨_, s₂, h₂⟩, -, h⟩ := bind_eq_ok_iff.mp h
        obtain ⟨⟨right, s₃, h₃⟩, -, h⟩ := bind_eq_ok_iff.mp h
        obtain ⟨⟨whole, s₄, h₄⟩, hlater, h⟩ := bind_eq_ok_iff.mp h
        cases h
        have hstops := stopsAt_of_readOperators hlater
        exact hstops
termination_by s.size
decreasing_by grind

lemma stopsAt_of_readExpression {r : Taken 0 Node s} (h : s.readExpression least = .ok r) :
    r.rest.StopsAt least := by
  rw [readExpression] at h
  obtain ⟨⟨left, s₁, h₁⟩, -, h⟩ := bind_eq_ok_iff.mp h
  obtain ⟨⟨whole, s₂, h₂⟩, hoperators, h⟩ := bind_eq_ok_iff.mp h
  cases h
  have hstops := stopsAt_of_readOperators hoperators
  exact hstops

/-- Every operator has some power. -/
lemma StopsAt.operator?_eq_none (h : s.StopsAt 0) (ht : s.ComesNext t) :
    Progress.operator? t = none := by
  cases hop : Progress.operator? t with
  | none => rfl
  | some op =>
    have hlt := h t op ht hop
    have hpos := op.leftPower_pos
    omega

end Stream

namespace Progress

variable {least : Int} {t : Token} {x : Node} {stack : List Pending} {p : Pending} {op : Op}

/-- An operator that binds at least as tightly as the top of the stack waits for its right
operand. -/
lemma step_of_operator (hop : operator? t = some op)
    (h : ¬ op.leftPower < slotPower least stack) :
    (reached x stack).step least t = .ok (.more (.awaiting (.operation x op :: stack))) := by
  have hclose : closeAbove op.leftPower x stack = (x, stack) :=
    closeAbove_of_slotPower_le (Int.not_lt.mp h)
  rw [step, onReached, hop]
  simp only [onOperator, hclose]
  cases stack with
  | nil =>
    have hleast : ¬ op.leftPower < least := h
    simp only [if_neg hleast]
  | cons p stack => rfl

/-- A token before which an operand ends gives it to the operator on top of the stack. -/
lemma step_close {q : Int} (hp : p.power? = some q)
    (h : ∀ op, operator? t = some op → op.leftPower < q) :
    (reached x (p :: stack)).step least t = (reached (p.close x) stack).step least t := by
  simp only [step, onReached]
  cases hop : operator? t with
  | none => simp only [onDelimiter, closeOperators, hp]
  | some op => simp only [onOperator, closeAbove_cons hp (h op hop)]

lemma finish_close {q : Int} (hp : p.power? = some q) :
    (reached x (p :: stack)).finish = (reached (p.close x) stack).finish := by
  simp only [finish, finishReached, closeOperators, hp]

/-- A whole expression ends before what does not go on with it. -/
lemma step_whole (h : ∀ op, operator? t = some op → op.leftPower < least) :
    (reached x []).step least t = .ok (.done x) := by
  simp only [step, onReached]
  cases hop : operator? t with
  | none => rfl
  | some op => simp only [onOperator, closeAbove, if_pos (h op hop)]

end Progress

/-! ### Expressions -/

namespace TokenMachine

variable {σ β : Type} {m : TokenMachine σ β}

/-- A machine that reads an expression inside what it reads: `inside` puts the expression back where
it is being read, `after` takes the token that the expression ended before, and `ended` says what is
made of an expression that the tokens end after. -/
structure Holds (m : TokenMachine σ β) (least : Int) (inside : Progress → σ)
    (after : Node → Token → Except ParseError σ) (ended : Node → Except ParseError β) : Prop where
  step : ∀ p t, m.step (inside p) t =
    match p.step least t with
    | .ok (.more q) => .ok (inside q)
    | .ok (.done x) => after x t
    | .error e => .error e
  finish : ∀ p, m.finish (inside p) = p.finish >>= ended

namespace Holds

variable {least : Int} {inside : Progress → σ} {after : Node → Token → Except ParseError σ}
  {ended : Node → Except ParseError β}

lemma step_of_more (h : m.Holds least inside after ended) {p q : Progress} {t : Token}
    (hstep : p.step least t = .ok (.more q)) : m.step (inside p) t = .ok (inside q) := by
  rw [h.step, hstep]

lemma step_awaiting (h : m.Holds least inside after ended) (stack : List Pending) (t : Token) :
    m.step (inside (.awaiting stack)) t = (Progress.onAwaiting stack t).map inside := by
  rw [h.step, Progress.step]
  cases Progress.onAwaiting stack t <;> rfl

/-- An operator on top of the stack is given its right operand where no operator comes that binds
the operand tighter. -/
lemma run_close (h : m.Holds least inside after ended) {p : Pending} {q : Int} {x : Node}
    {stack : List Pending} {s : Stream} (hp : p.power? = some q) (hs : s.StopsAt q) :
    m.run (inside (.reached x (p :: stack))) s = m.run (inside (.reached (p.close x) stack)) s := by
  refine run_congr (fun t ht => ?_) fun _ => ?_
  · rw [h.step, h.step, Progress.step_close hp fun op hop => hs t op ht hop]
  · rw [h.finish, h.finish, Progress.finish_close hp]

/-- A parenthesis around an expression is closed. -/
lemma run_group (h : m.Holds least inside after ended) {x : Node} {stack : List Pending}
    {s : Stream} (hs : s.StopsAt 0) :
    m.run (inside (.reached x (.group :: stack))) s =
      s.use (Stream.expect (.mark .closeParen) (some "')'")) >>= fun r =>
        m.run (inside (.reached x stack)) r.rest := by
  refine run_of_expect (by decide) (h.finish _) fun t ht => ?_
  rw [h.step, Progress.step, Progress.onReached, hs.operator?_eq_none ht]
  simp only [Progress.onDelimiter, closeOperators, Pending.power?]
  cases t.isMark .closeParen <;> rfl

/-- After an argument comes a comma or a parenthesis. -/
lemma step_argument (h : m.Holds least inside after ended) {name : String} {l : Option Location}
    {earlier : List Node} {x : Node} {stack : List Pending} {t : Token}
    (hop : Progress.operator? t = none) :
    m.step (inside (.reached x (.argument name l earlier :: stack))) t =
      if t.isMark .closeParen then .ok (inside (.reached (.call name (earlier ++ [x]) l) stack))
      else if t.isMark .comma then
        .ok (inside (.awaiting (.argument name l (earlier ++ [x]) :: stack)))
      else .error (.unexpectedToken t (some "',' or ')'")) := by
  rw [h.step, Progress.step, Progress.onReached, hop]
  simp only [Progress.onDelimiter, closeOperators, Pending.power?]
  cases t.isMark .closeParen with
  | true => rfl
  | false => cases t.isMark .comma <;> rfl

/-- A name is called if a parenthesis follows. -/
lemma run_named (h : m.Holds least inside after ended) {name : String} {l : Option Location}
    {stack : List Pending} {s : Stream} :
    m.run (inside (.named name l stack)) s =
      s.use (Stream.takeIf [.mark .openParen]) >>= fun r =>
        m.run (if r.value.isSome then inside (.opened name l stack)
          else inside (.reached (.symbol name l) stack)) r.rest := by
  refine run_of_takeIf ?_ (fun t _ hkind => ?_) fun t _ hkind => ?_
  · rw [h.finish, h.finish]
    rfl
  · refine h.step_of_more ?_
    rw [Progress.step, Token.isMark, if_pos (beq_iff_eq.mpr hkind)]
  · have hmark : ¬ t.isMark .openParen = true := mt beq_iff_eq.mp hkind
    rw [h.step, h.step]
    simp only [Progress.step, if_neg hmark]

/-- A call has no arguments if its parenthesis is closed at once. -/
lemma run_opened (h : m.Holds least inside after ended) {name : String} {l : Option Location}
    {stack : List Pending} {s : Stream} :
    m.run (inside (.opened name l stack)) s =
      s.use (Stream.takeIf [.mark .closeParen]) >>= fun r =>
        m.run (if r.value.isSome then inside (.reached (.call name [] l) stack)
          else inside (.awaiting (.argument name l [] :: stack))) r.rest := by
  refine run_of_takeIf ?_ (fun t _ hkind => ?_) fun t _ hkind => ?_
  · rw [h.finish, h.finish]
    rfl
  · refine h.step_of_more ?_
    rw [Progress.step, Token.isMark, if_pos (beq_iff_eq.mpr hkind)]
  · have hmark : ¬ t.isMark .closeParen = true := mt beq_iff_eq.mp hkind
    rw [h.step, h.step]
    simp only [Progress.step, if_neg hmark]

/-- Where an expression is whole, the token that follows it decides. -/
lemma step_whole (h : m.Holds least inside after ended) {x : Node} {s : Stream} {t : Token}
    (hs : s.StopsAt least) (ht : s.ComesNext t) :
    m.step (inside (.reached x [])) t = after x t := by
  rw [h.step, Progress.step_whole fun op hop => hs t op ht hop]

/-! The induction is on what is left of the stream, together with the function that stands for the
machine, as in the recursion of these functions: the stack grows while the stream shrinks. -/

mutual

/-- Where an operand is awaited, an expression is read, as tight as the top of the stack wants it. -/
theorem run_expression (h : m.Holds least inside after ended) (stack : List Pending) (s : Stream) :
    m.run (inside (.awaiting stack)) s = s.readExpression (slotPower least stack) >>= fun r =>
      m.run (inside (.reached r.value stack)) r.rest := by
  rw [Stream.readExpression, bind_assoc, h.run_operand stack s]
  refine bind_congr ?_
  rintro ⟨left, s₁, h₁⟩
  rw [bind_assoc, h.run_operators left stack s₁]
  rfl
termination_by (s.size, 2)
decreasing_by all_goals grind

/-- After an operand, operators are taken as long as they bind at least as tightly as the top of the
stack. -/
theorem run_operators (h : m.Holds least inside after ended) (left : Node) (stack : List Pending)
    (s : Stream) :
    m.run (inside (.reached left stack)) s =
      s.readOperators (slotPower least stack) left >>= fun r =>
        m.run (inside (.reached r.value stack)) r.rest := by
  rw [Stream.readOperators, bind_assoc, run_of_looks Stream.looks_peek]
  refine bind_congr ?_
  rintro ⟨_ | t, s₁, hpeek⟩
  · rfl
  · dsimp only
    split
    next => rfl
    next op hop =>
      split
      next => rfl
      next hpower =>
        have ht : s₁.ComesNext t := ⟨s₁, Stream.peek_of_peek hpeek⟩
        rw [run_of_next ht (h.step_of_more (Progress.step_of_operator hop hpower)), bind_assoc]
        refine bind_congr ?_
        rintro ⟨_, s₂, h₂⟩
        -- the operator waits on the stack while its right operand is read
        rw [h.run_expression (.operation left op :: stack) s₂, bind_assoc]
        refine bind_congr_of_ok ?_
        rintro ⟨right, s₃, h₃⟩ hright
        rw [h.run_close rfl (Stream.stopsAt_of_readExpression hright), bind_assoc]
        exact h.run_operators _ stack s₃
termination_by (s.size, 1)
decreasing_by all_goals grind

/-- An operand is a single token, or something of which only the beginning is on the stack. -/
theorem run_operand (h : m.Holds least inside after ended) (stack : List Pending) (s : Stream) :
    m.run (inside (.awaiting stack)) s = s.readOperand >>= fun r =>
      m.run (inside (.reached r.value stack)) r.rest := by
  rw [Stream.readOperand, bind_assoc, run_of_expectNext (h.finish _)]
  refine bind_congr ?_
  rintro ⟨⟨lexeme, l⟩, s₁, h₁⟩
  rw [h.step_awaiting]
  cases lexeme with
  | number value => rfl
  | keyword k => rfl
  | identifier name =>
    show m.run (inside (.named name l stack)) s₁ = _
    rw [h.run_named, bind_assoc]
    refine bind_congr ?_
    rintro ⟨paren, s₂, h₂⟩
    cases paren with
    | none => rfl
    | some _ =>
      show m.run (inside (.opened name l stack)) s₂ = _
      rw [bind_assoc]
      exact h.run_call name l stack s₂
  | mark mark =>
    cases mark with
    | openParen =>
      show m.run (inside (.awaiting (.group :: stack))) s₁ = (s₁.readExpression 0 >>= _) >>= _
      rw [h.run_expression (.group :: stack) s₁, bind_assoc]
      refine bind_congr_of_ok ?_
      rintro ⟨inner, s₂, h₂⟩ hinner
      rw [h.run_group (Stream.stopsAt_of_readExpression hinner), bind_assoc]
      rfl
    | minus =>
      show m.run (inside (.awaiting (.negation l :: stack))) s₁ =
        (s₁.readExpression negationPower >>= _) >>= _
      rw [h.run_expression (.negation l :: stack) s₁, bind_assoc]
      refine bind_congr_of_ok ?_
      rintro ⟨operand, s₂, h₂⟩ hoperand
      exact h.run_close rfl (Stream.stopsAt_of_readExpression hoperand)
    | _ => rfl
termination_by (s.size, 0)
decreasing_by all_goals grind

/-- A call, from its opening parenthesis on. -/
theorem run_call (h : m.Holds least inside after ended) (name : String) (l : Option Location)
    (stack : List Pending) (s : Stream) :
    m.run (inside (.opened name l stack)) s = s.readCall name l >>= fun r =>
      m.run (inside (.reached r.value stack)) r.rest := by
  rw [Stream.readCall, bind_assoc, h.run_opened]
  refine bind_congr ?_
  rintro ⟨paren, s₁, h₁⟩
  cases paren with
  | some _ => rfl
  | none =>
    show m.run (inside (.awaiting (.argument name l [] :: stack))) s₁ = _
    rw [bind_assoc]
    exact h.run_arguments name l [] stack s₁
termination_by (s.size, 4)
decreasing_by all_goals grind

/-- The arguments of a call: the earlier ones lie on the stack while the next one is read. -/
theorem run_arguments (h : m.Holds least inside after ended) (name : String) (l : Option Location)
    (earlier : List Node) (stack : List Pending) (s : Stream) :
    m.run (inside (.awaiting (.argument name l earlier :: stack))) s =
      s.readArguments name l earlier >>= fun r =>
        m.run (inside (.reached r.value stack)) r.rest := by
  rw [Stream.readArguments, bind_assoc, h.run_expression (.argument name l earlier :: stack) s]
  refine bind_congr_of_ok ?_
  rintro ⟨last, s₁, h₁⟩ hlast
  rw [bind_assoc, run_of_expectNext (h.finish _)]
  refine bind_congr ?_
  rintro ⟨t, s₂, h₂⟩
  have hop := (Stream.stopsAt_of_readExpression hlast).operator?_eq_none
    (Stream.comesNext_of_expectNext h₂)
  rw [h.step_argument hop]
  dsimp only
  split
  · rfl
  · split
    · show m.run (inside (.awaiting (.argument name l (earlier ++ [last]) :: stack))) s₂ = _
      rw [bind_assoc]
      exact h.run_arguments name l (earlier ++ [last]) stack s₂
    · rfl
termination_by (s.size, 3)
decreasing_by all_goals grind

end

end Holds

end TokenMachine

/-! ### An expression alone -/

/-- Reading an expression and then all tokens that follow it, as a machine. -/
def Progress.collector (least : Int) :
    TokenMachine (Progress ⊕ Node × List Token) (Node × List Token) where
  step
    | .inl p, t =>
      match p.step least t with
      | .ok (.more q) => .ok (.inl q)
      | .ok (.done x) => .ok (.inr (x, [t]))
      | .error e => .error e
    | .inr (x, earlier), t => .ok (.inr (x, earlier ++ [t]))
  finish
    | .inl p => p.finish.map (·, [])
    | .inr r => .ok r

lemma Stream.takeAll_list (earlier tokens : List Token) :
    (ofFeed (.list tokens)).takeAll earlier = .ok (earlier ++ tokens) := by
  induction tokens generalizing earlier with
  | nil =>
    rw [takeAll, List.append_nil]
    rfl
  | cons t tokens ih =>
    rw [takeAll, List.append_cons]
    exact ih (earlier ++ [t])

namespace Progress

variable {least : Int}

lemma holds_collector : (collector least).Holds least .inl (fun x t => .ok (.inr (x, [t])))
    (fun x => .ok (x, [])) := by
  refine ⟨fun p t => rfl, fun p => ?_⟩
  cases hfinish : p.finish <;> simp only [collector, hfinish] <;> rfl

/-- After the expression the tokens are only collected. -/
lemma run_collector_inr (x : Node) (earlier : List Token) (s : Stream) :
    (collector least).run (.inr (x, earlier)) s = (s.takeAll earlier).map (x, ·) := by
  rw [TokenMachine.run, Stream.takeAll]
  cases s.use Stream.next with
  | error e => rfl
  | ok r =>
    obtain ⟨_ | t, s₁, h⟩ := r
    · rfl
    · exact run_collector_inr x (earlier ++ [t]) s₁
termination_by s.size
decreasing_by grind

lemma run_collector_list (p : Progress) (tokens : List Token) :
    (collector least).run (.inl p) (.ofFeed (.list tokens)) =
      (p.read least tokens).mapError .parse := by
  induction tokens generalizing p with
  | nil =>
    rw [TokenMachine.run_eq]
    rfl
  | cons t tokens ih =>
    rw [TokenMachine.run_eq, read]
    show ((collector least).step (.inl p) t).mapError _ >>= _ = _
    simp only [collector]
    rcases p.step least t with e | q | x
    · rfl
    · exact ih q
    · show (collector least).run (.inr (x, [t])) (.ofFeed (.list tokens)) = _
      rw [run_collector_inr, Stream.takeAll_list]
      rfl

end Progress

/-- An expression is read by descent from a list of tokens as it is read token by token, and the same
tokens follow it. -/
theorem Stream.readLeading_list (least : Int) (tokens : List Token) :
    (Stream.ofFeed (.list tokens)).readLeading least =
      (TinyCompiler.readExpression least tokens).mapError .parse := by
  rw [TinyCompiler.readExpression, ← Progress.run_collector_list, Progress.start,
    Progress.holds_collector.run_expression, Stream.readLeading]
  refine bind_congr_of_ok ?_
  rintro ⟨x, s, h⟩ hx
  have hcollect : (Progress.collector least).run (.inl (.reached x [])) s =
      (Progress.collector least).run (.inr (x, [])) s :=
    TokenMachine.run_congr
      (fun t ht => Progress.holds_collector.step_whole (stopsAt_of_readExpression hx) ht)
      fun _ => rfl
  exact ((hcollect.trans (Progress.run_collector_inr x [] s))).symm

end TinyCompiler
