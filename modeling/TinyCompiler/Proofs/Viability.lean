import TinyCompiler.Proofs.Completeness

/-!
# The first token that is one too many

Reading takes one token at a time and looks at none ahead. So a complaint about a token depends on
the tokens up to that one alone, and no program begins with them. Without that token there is
always a way to go on: wherever the reading of an expression, of a statement or of a function
stands, what is open can be closed (`Progress.exists_completion`, `Reader.exists_completion`).
Together this says that a complaint is about the earliest token that can be blamed
(`parse_error_earliest`).
-/

namespace TinyCompiler

/-! ### Whom a complaint blames -/

/-- A complaint is about a token. -/
def ParseError.Blames (t : Token) : ParseError → Prop
  | .unexpectedToken t' _ => t' = t
  | .unexpectedEnd _ => False

/-- A complaint is about the end of the tokens. -/
def ParseError.IsAboutEnd : ParseError → Prop
  | .unexpectedToken _ _ => False
  | .unexpectedEnd _ => True

namespace Progress

variable {least : Int} {p : Progress} {operand : Node} {stack : List Pending} {t : Token}
  {e : ParseError}

lemma blames_of_onAwaiting (h : onAwaiting stack t = .error e) : e.Blames t := by
  rw [onAwaiting] at h
  split at h <;> cases h
  rfl

lemma blames_of_onDelimiter (h : onDelimiter operand stack t = .error e) : e.Blames t := by
  rw [onDelimiter] at h
  split at h
  · split at h <;> cases h
    rfl
  · split at h
    · cases h
    · split at h <;> cases h
      rfl
  · cases h

lemma blames_of_onReached (h : onReached least operand stack t = .error e) : e.Blames t := by
  rw [onReached] at h
  split at h
  · cases h
  · exact blames_of_onDelimiter h

lemma blames_of_map_more {x : Except ParseError Progress} (h : Advance.more <$> x = .error e)
    (hx : ∀ e, x = .error e → e.Blames t) : e.Blames t := by
  cases x with
  | ok p => cases h
  | error e' =>
    cases h
    exact hx e rfl

/-- Wherever the reading of an expression stands, a complaint is about the token that was taken. -/
lemma blames_of_step (h : p.step least t = .error e) : e.Blames t := by
  cases p with
  | awaiting stack => exact blames_of_map_more h fun e he => blames_of_onAwaiting he
  | named name l stack =>
    simp only [step] at h
    split at h
    · cases h
    · exact blames_of_onReached h
  | opened name l stack =>
    simp only [step] at h
    split at h
    · cases h
    · exact blames_of_map_more h fun e he => blames_of_onAwaiting he
  | reached operand stack => exact blames_of_onReached h

lemma isAboutEnd_of_finishReached (h : finishReached operand stack = .error e) : e.IsAboutEnd := by
  rw [finishReached] at h
  split at h <;> cases h <;> trivial

lemma isAboutEnd_of_finish (h : p.finish = .error e) : e.IsAboutEnd := by
  cases p with
  | awaiting stack =>
    cases h
    trivial
  | opened name l stack =>
    cases h
    trivial
  | named name l stack => exact isAboutEnd_of_finishReached h
  | reached operand stack => exact isAboutEnd_of_finishReached h

end Progress

namespace PartialStatement

variable {s : PartialStatement} {t : Token} {e : ParseError}

lemma blames_of_endStatement {n : Node} (h : endStatement n t = .error e) : e.Blames t := by
  rw [endStatement] at h
  split at h <;> cases h
  rfl

lemma blames_of_inExpression {p : Progress} {inside : Progress → PartialStatement}
    {after : Node → Except ParseError Advance}
    (hafter : ∀ n, after n = .error e → e.Blames t)
    (h : inExpression p t inside after = .error e) : e.Blames t := by
  rw [inExpression] at h
  split at h
  next => cases h
  next n hn => exact hafter n h
  next e' he' =>
    cases h
    exact Progress.blames_of_step he'

/-- Wherever the reading of a statement stands, a complaint is about the token that was taken. -/
lemma blames_of_step (h : s.step t = .error e) : e.Blames t := by
  cases s with
  | giveBack l =>
    simp only [step] at h
    split at h
    · exact blames_of_inExpression (fun n => blames_of_endStatement) h
    · exact blames_of_endStatement h
  | giveBackValue l value | assignValue l x value | whenFalse l c b value =>
    exact blames_of_inExpression (fun n => blames_of_endStatement) h
  | assign l =>
    simp only [step] at h
    split at h <;> cases h
    rfl
  | assignName l x =>
    simp only [step] at h
    split at h <;> cases h
    rfl
  | conditional l =>
    simp only [step] at h
    split at h <;> cases h
    rfl
  | testing l c =>
    refine blames_of_inExpression (fun n hn => ?_) h
    split at hn <;> cases hn
    rfl
  | whenTrue l c b =>
    refine blames_of_inExpression (fun n hn => ?_) h
    split at hn
    · cases hn
    · exact blames_of_endStatement hn

lemma isAboutEnd_lackAfter (p : Progress) (expected : String) :
    (lack.lackAfter p expected).IsAboutEnd := by
  rw [lack.lackAfter]
  split
  next => trivial
  next e he => exact Progress.isAboutEnd_of_finish he

lemma isAboutEnd_lack (s : PartialStatement) : s.lack.IsAboutEnd := by
  cases s with
  | giveBack | assign | assignName | conditional => trivial
  | testing | giveBackValue | assignValue | whenTrue | whenFalse => exact isAboutEnd_lackAfter _ _

end PartialStatement

namespace Reader

variable {r : Reader} {t : Token} {e : ParseError}

lemma blames_of_expectMark {m : Mark} {expected : String} {next : Reader}
    (h : expectMark t m expected next = .error e) : e.Blames t := by
  rw [expectMark] at h
  split at h <;> cases h
  rfl

/-- A complaint while tokens are taken is about the token that was taken. -/
lemma blames_of_step (h : r.step t = .error e) : e.Blames t := by
  obtain ⟨functions, stage⟩ := r
  cases stage with
  | outside => cases h
  | announced l =>
    simp only [step] at h
    split at h <;> cases h
    rfl
  | named l name | opened l name | closed l name => exact blames_of_expectMark h
  | body l name statements =>
    simp only [step] at h
    split at h
    · cases h
    · split at h <;> cases h
      rfl
  | inside l name statements s =>
    simp only [step] at h
    split at h
    next => cases h
    next => cases h
    next e' he' =>
      cases h
      exact PartialStatement.blames_of_step he'

/-- A complaint when no token is left is about that. -/
lemma isAboutEnd_of_finish (h : r.finish = .error e) : e.IsAboutEnd := by
  obtain ⟨functions, stage⟩ := r
  cases stage with
  | outside | body => cases h
  | announced | named | opened | closed =>
    cases h
    trivial
  | inside l name statements s =>
    cases h
    exact PartialStatement.isAboutEnd_lack s

/-- A complaint about a token comes when all tokens before it have been taken. -/
lemma exists_of_unexpectedToken {expected : Option String} {ts : List Token}
    (h : r.readTokens ts = .error (.unexpectedToken t expected)) :
    ∃ pre post r', ts = pre ++ t :: post ∧ r.Reads pre r' ∧
      r'.step t = .error (.unexpectedToken t expected) := by
  induction ts generalizing r with
  | nil => exact absurd (isAboutEnd_of_finish h) id
  | cons t' ts ih =>
    rw [readTokens] at h
    split at h
    next r' hr' =>
      obtain ⟨pre, post, r'', rfl, hreads, hstep⟩ := ih h
      exact ⟨t' :: pre, post, r'', rfl, .cons hr' hreads, hstep⟩
    next e' he' =>
      cases h
      obtain rfl : t = t' := blames_of_step he'
      exact ⟨[], ts, r, rfl, fun rest => rfl, he'⟩

/-- A complaint about the end of the tokens comes when all of them have been taken. -/
lemma exists_of_unexpectedEnd {expected : Option String} {ts : List Token}
    (h : r.readTokens ts = .error (.unexpectedEnd expected)) : ∃ r', r.Reads ts r' := by
  induction ts generalizing r with
  | nil => exact ⟨r, fun rest => rfl⟩
  | cons t ts ih =>
    rw [readTokens] at h
    split at h
    next r' hr' =>
      obtain ⟨r'', hreads⟩ := ih h
      exact ⟨r'', .cons hr' hreads⟩
    next e' he' =>
      cases h
      exact absurd (blames_of_step he') id

end Reader

/-! ### Ways to go on -/

/-- A word at no particular place. -/
def Token.ofLexeme (w : Lexeme) : Token := ⟨w, none⟩

/-- What is left when all operators are closed is nothing, or an open parenthesis or call on top of
a shorter stack. -/
lemma closeOperators_cases (operand : Node) (stack : List Pending) :
    (∃ e, closeOperators operand stack = (e, [])) ∨
      ∃ e p below, closeOperators operand stack = (e, p :: below) ∧ p.power? = none ∧
        below.length < stack.length := by
  induction stack generalizing operand with
  | nil => exact .inl ⟨operand, rfl⟩
  | cons p stack ih =>
    rw [closeOperators]
    cases hp : p.power? with
    | none => exact .inr ⟨operand, p, stack, rfl, hp, Nat.lt_succ_self _⟩
    | some q =>
      rcases ih (p.close operand) with ⟨e, he⟩ | ⟨e, p', below, he, hp', hlength⟩
      · exact .inl ⟨e, he⟩
      · exact .inr ⟨e, p', below, he, hp', Nat.lt_succ_of_lt hlength⟩

namespace Progress

variable {p : Progress} {operand : Node} {stack : List Pending}

/-- A closing parenthesis after an operand closes the innermost parenthesis or call. -/
lemma exists_step_closeParen (least : Int) {e : Node} {bracket : Pending} {below : List Pending}
    {t : Token} (hp : p.operand? = some (operand, stack))
    (hclose : closeOperators operand stack = (e, bracket :: below))
    (hbracket : bracket.power? = none) (ht : t.lexeme = .mark .closeParen) :
    ∃ e', p.step least t = .ok (.more (.reached e' below)) := by
  rw [step_of_ends hp (ends_of_closeParen ht), onDelimiter, hclose]
  have hmark := Token.isMark_iff.mpr ht
  cases bracket with
  | group => exact ⟨e, if_pos hmark⟩
  | argument name l earlier => exact ⟨.call name (earlier ++ [e]) l, if_pos hmark⟩
  | negation l => cases hbracket
  | operation left op => cases hbracket

/-- After an operand, closing parentheses close what is open. -/
lemma exists_completion_of_operand? (hp : p.operand? = some (operand, stack)) :
    ∃ ts q e, Reads 0 p ts q ∧ ∀ t, Ends t → q.step 0 t = .ok (.done e) := by
  -- each parenthesis leaves a shorter stack
  induction hn : stack.length using Nat.strongRecOn generalizing p operand stack with
  | _ n ih =>
    rcases closeOperators_cases operand stack with ⟨e, hclose⟩ | ⟨e, b, below, hclose, hb, hlength⟩
    · refine ⟨[], p, e, .refl p, fun t ht => ?_⟩
      rw [step_of_ends hp ht, onDelimiter]
      simp only [hclose]
    · obtain ⟨e', hstep⟩ := exists_step_closeParen 0 hp hclose hb
        (t := .ofLexeme (.mark .closeParen)) rfl
      obtain ⟨ts, q, e'', hreads, hend⟩ :=
        ih below.length (hn ▸ hlength) (p := .reached e' below) rfl rfl
      exact ⟨_ :: ts, q, e'', .cons hstep hreads, hend⟩

/-- Wherever the reading of an expression stands, the expression can be brought to an end. -/
lemma exists_completion (p : Progress) :
    ∃ ts q e, Reads 0 p ts q ∧ ∀ t, Ends t → q.step 0 t = .ok (.done e) := by
  cases p with
  | awaiting stack =>
    have hstep : (Progress.awaiting stack).step 0 (.ofLexeme (.number (.ofNat 0))) =
        .ok (.more (.reached (.constant (.ofNat 0) none) stack)) := rfl
    obtain ⟨ts, q, e, hreads, hend⟩ :=
      exists_completion_of_operand? (p := .reached (.constant (.ofNat 0) none) stack) rfl
    exact ⟨_, q, e, .cons hstep hreads, hend⟩
  | named name l stack => exact exists_completion_of_operand? rfl
  | opened name l stack =>
    have hstep : (Progress.opened name l stack).step 0 (.ofLexeme (.mark .closeParen)) =
        .ok (.more (.reached (.call name [] l) stack)) := rfl
    obtain ⟨ts, q, e, hreads, hend⟩ :=
      exists_completion_of_operand? (p := .reached (.call name [] l) stack) rfl
    exact ⟨_, q, e, .cons hstep hreads, hend⟩
  | reached operand stack => exact exists_completion_of_operand? rfl

end Progress

namespace Reader

/-- Tokens lead out of a statement. -/
def CompletesStatement (s : PartialStatement) : Prop :=
  ∀ functions l name statements, ∃ ts n,
    Reads ⟨functions, .inside l name statements s⟩ ts ⟨functions, .body l name (statements ++ [n])⟩

variable {s s' : PartialStatement}

lemma CompletesStatement.of_more {t : Token} (h : s.step t = .ok (.more s'))
    (h' : CompletesStatement s') : CompletesStatement s := by
  intro functions l name statements
  obtain ⟨ts, n, hreads⟩ := h' functions l name statements
  exact ⟨t :: ts, n, .cons (step_more h) hreads⟩

lemma CompletesStatement.of_done {t : Token} {n : Node} (h : s.step t = .ok (.done n)) :
    CompletesStatement s := fun _ _ _ _ => ⟨[t], n, .of_step (step_done h)⟩

/-- A statement in whose expression reading stands can be completed if it can be when the expression
has come to its end. -/
lemma CompletesStatement.of_expression {inside : Progress → PartialStatement}
    {after : Token → Node → Except ParseError PartialStatement.Advance}
    (hinside : ∀ p t, (inside p).step t = PartialStatement.inExpression p t inside (after t))
    (hafter : ∀ q e, (∀ t, Progress.Ends t → (inside q).step t = after t e) →
      CompletesStatement (inside q)) (p : Progress) : CompletesStatement (inside p) := by
  intro functions l name statements
  obtain ⟨ts, q, e, hreads, hend⟩ := p.exists_completion
  have hq : ∀ t, Progress.Ends t → (inside q).step t = after t e := by
    intro t ht
    rw [hinside, PartialStatement.inExpression, hend t ht]
  obtain ⟨us, n, hrest⟩ := hafter q e hq functions l name statements
  exact ⟨ts ++ us, n, (reads_inside hinside hreads).trans hrest⟩

/-- A statement whose last expression is being read ends with a semicolon after it. -/
lemma CompletesStatement.of_last_expression {inside : Progress → PartialStatement}
    {after : Token → Node → Except ParseError PartialStatement.Advance}
    (hinside : ∀ p t, (inside p).step t = PartialStatement.inExpression p t inside (after t))
    (hafter : ∀ e, ∃ n, after (.ofLexeme (.mark .semicolon)) e = .ok (.done n)) (p : Progress) :
    CompletesStatement (inside p) := by
  refine .of_expression hinside (fun q e hq => ?_) p
  obtain ⟨n, hn⟩ := hafter e
  exact .of_done ((hq (.ofLexeme (.mark .semicolon)) (Progress.ends_of_semicolon rfl)).trans hn)

/-- Wherever the reading of a statement stands, the statement can be completed. -/
lemma completesStatement (s : PartialStatement) : CompletesStatement s := by
  -- from the last expression of a statement backwards
  have hgiveBack : ∀ l p, CompletesStatement (.giveBackValue l p) := fun l =>
    .of_last_expression (fun p t => rfl) fun e => ⟨_, rfl⟩
  have hassign : ∀ l x p, CompletesStatement (.assignValue l x p) := fun l x =>
    .of_last_expression (fun p t => rfl) fun e => ⟨_, rfl⟩
  have htrue : ∀ l c p, CompletesStatement (.whenTrue l c p) := fun l c =>
    .of_last_expression (fun p t => rfl) fun e => ⟨_, rfl⟩
  have htesting : ∀ l p, CompletesStatement (.testing l p) := fun l =>
    .of_expression (fun p t => rfl) fun q e hq =>
      .of_more (hq (.ofLexeme (.mark .closeParen)) (Progress.ends_of_closeParen rfl))
        (htrue l e .start)
  have hname : ∀ l x, CompletesStatement (.assignName l x) := fun l x =>
    .of_more (t := .ofLexeme (.mark .equals)) rfl (hassign l x .start)
  cases s with
  | giveBack l => exact .of_done (t := .ofLexeme (.mark .semicolon)) rfl
  | giveBackValue l p => exact hgiveBack l p
  | assign l => exact .of_more (t := .ofLexeme (.identifier "x")) rfl (hname l "x")
  | assignName l x => exact hname l x
  | assignValue l x p => exact hassign l x p
  | conditional l => exact .of_more (t := .ofLexeme (.mark .openParen)) rfl (htesting l .start)
  | testing l p => exact htesting l p
  | whenTrue l c p => exact htrue l c p
  | whenFalse l c b p => exact .of_last_expression (fun p t => rfl) (fun e => ⟨_, rfl⟩) p

/-- Wherever the reading of a program stands, the program can be completed. -/
lemma exists_completion (r : Reader) : ∃ ts p, r.readTokens ts = .ok p := by
  obtain ⟨functions, stage⟩ := r
  -- what stands between the name of a function and its body
  let parenthesis : Token := .ofLexeme (.mark .openParen)
  let close : Token := .ofLexeme (.mark .closeParen)
  let brace : Token := .ofLexeme (.mark .openBrace)
  cases stage with
  | outside => exact ⟨[], _, rfl⟩
  | announced l => exact ⟨[.ofLexeme (.identifier "f"), parenthesis, close, brace], _, rfl⟩
  | named l name => exact ⟨[parenthesis, close, brace], _, rfl⟩
  | opened l name => exact ⟨[close, brace], _, rfl⟩
  | closed l name => exact ⟨[brace], _, rfl⟩
  | body l name statements => exact ⟨[], _, rfl⟩
  | inside l name statements s =>
    obtain ⟨ts, n, hreads⟩ := completesStatement s functions l name statements
    refine ⟨ts ++ [], ⟨functions ++ [⟨name, statements ++ [n], l⟩]⟩, ?_⟩
    rw [hreads []]
    rfl

end Reader

/-! ### The earliest complaint -/

/-- Tokens are a program. -/
def Accepted (tokens : List Token) : Prop := ∃ p, parse tokens = .ok p

/-- Tokens that have all been taken are the beginning of a program. -/
lemma exists_accepted_of_reads {ts : List Token} {r : Reader} (h : Reader.start.Reads ts r) :
    ∃ rest, Accepted (ts ++ rest) := by
  obtain ⟨rest, p, hp⟩ := r.exists_completion
  exact ⟨rest, p, (h rest).trans hp⟩

/-- A token that is not taken ends every program that could have begun so. -/
lemma not_accepted_of_step {pre rest : List Token} {t : Token} {r : Reader} {e : ParseError}
    (h : Reader.start.Reads pre r) (hstep : r.step t = .error e) :
    ¬ Accepted (pre ++ t :: rest) := by
  rintro ⟨p, hp⟩
  rw [parse, h (t :: rest), Reader.readTokens, hstep] at hp
  cases hp

/-- A complaint is about the earliest token that can be blamed. Some program begins with the tokens
before it, and none with those and the token itself. A complaint about the end of the tokens is made
only where more tokens would make a program. -/
theorem parse_error_earliest (tokens : List Token) :
    (∀ t expected, parse tokens = .error (.unexpectedToken t expected) →
      ∃ pre post, tokens = pre ++ t :: post ∧ (∀ rest, ¬ Accepted (pre ++ t :: rest)) ∧
        ∃ rest, Accepted (pre ++ rest)) ∧
    ∀ expected, parse tokens = .error (.unexpectedEnd expected) →
      ¬ Accepted tokens ∧ ∃ rest, rest ≠ [] ∧ Accepted (tokens ++ rest) := by
  constructor
  · intro t expected herror
    obtain ⟨pre, post, r, rfl, hreads, hstep⟩ := Reader.exists_of_unexpectedToken herror
    exact ⟨pre, post, rfl, fun rest => not_accepted_of_step hreads hstep,
      exists_accepted_of_reads hreads⟩
  · intro expected herror
    have hrejected : ¬ Accepted tokens := by
      rintro ⟨p, hp⟩
      rw [herror] at hp
      cases hp
    obtain ⟨r, hreads⟩ := Reader.exists_of_unexpectedEnd herror
    obtain ⟨rest, hrest⟩ := exists_accepted_of_reads hreads
    refine ⟨hrejected, rest, ?_, hrest⟩
    rintro rfl
    rw [List.append_nil] at hrest
    exact hrejected hrest

/-- The words of `fun f ( ) { return g (`. -/
def unfinishedReturn : List Token :=
  [.keyword .kwFun, .identifier "f", .mark .openParen, .mark .closeParen, .mark .openBrace,
    .keyword .kwReturn, .identifier "g", .mark .openParen].map Token.ofLexeme

/-- A semicolon in a call that has not been closed, and the end of the tokens in its place. -/
theorem parse_error_earliest_in_call :
    (parse (unfinishedReturn ++ [.ofLexeme (.mark .semicolon)]) =
        .error (.unexpectedToken (.ofLexeme (.mark .semicolon)) (some "expression")) ∧
      ∃ pre post, unfinishedReturn ++ [.ofLexeme (.mark .semicolon)] =
          pre ++ .ofLexeme (.mark .semicolon) :: post ∧
        (∀ rest, ¬ Accepted (pre ++ .ofLexeme (.mark .semicolon) :: rest)) ∧
        ∃ rest, Accepted (pre ++ rest)) ∧
    parse unfinishedReturn = .error (.unexpectedEnd (some "expression")) ∧
      ¬ Accepted unfinishedReturn ∧ ∃ rest, rest ≠ [] ∧ Accepted (unfinishedReturn ++ rest) :=
  ⟨⟨rfl, (parse_error_earliest _).1 _ _ rfl⟩, rfl, (parse_error_earliest _).2 _ rfl⟩

end TinyCompiler
