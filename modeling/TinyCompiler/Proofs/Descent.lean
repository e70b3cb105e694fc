import TinyCompiler.Proofs.Stacks

/-!
# Programs by descent

A program is read by functions that call each other, or token by token. Statements, bodies and
functions follow each other in both ways, and in each of them expressions are read alike, so the
whole is: from every point between two functions the rest of a stream gives the same program or the
same complaint, over a list of tokens and over a text whose tokens are read as they are needed
(`Stream.readFunctions_list`, `Stream.readFunctions_pass`).
-/

namespace TinyCompiler

/-! ### Where a statement ends -/

namespace Stream

variable {s s' : Stream} {t : Token}

/-- Nothing has been looked at where a token was just taken. -/
lemma ahead_of_expectNext {expected : Option String} (h : s.expectNext expected = (.ok t, s')) :
    s'.ahead = none := by
  rw [expectNext, next] at h
  split at h <;> cases h
  next hnext => exact (congrArg (·.2.ahead) hnext).symm

lemma ahead_of_expect {kind : TokenKind} {expected : Option String}
    (h : s.expect kind expected = (.ok t, s')) : s'.ahead = none := by
  rw [expect_eq] at h
  split at h
  next t' s₁ hexpect =>
    split at h <;> cases h
    exact ahead_of_expectNext hexpect
  next => cases h

/-- Where a feed has come to its end, a stream finds the end again. -/
lemma peek_of_next_none (hs : s.ahead = none) (h : s.next = (.ok none, s')) :
    s'.peek.1 = .ok none := by
  obtain ⟨feed, ahead⟩ := s
  obtain rfl : ahead = none := hs
  rcases feed.next_cases with ⟨t, feed', hnext, -⟩ | ⟨e, feed', hnext, -⟩ |
    ⟨feed', hnext, -, hover⟩
  · simp [next, peek, hnext] at h
  · simp [next, peek, hnext] at h
  · simp only [next, peek, hnext] at h
    cases h
    rcases feed'.next_cases with ⟨t, feed'', -, hleft, -⟩ | ⟨e, feed'', -, -, hfault, -⟩ |
      ⟨feed'', hnext', -⟩
    · cases hover.left.symm.trans hleft
    · cases hover.fault.symm.trans hfault
    · simp only [peek, hnext']

/-- What was not taken is still there, and it is of another kind. -/
lemma comesNext_of_takeIf {kind : TokenKind} (h : s.takeIf [kind] = (.ok none, s'))
    (ht : s'.ComesNext t) : s.ComesNext t ∧ t.kind ≠ kind := by
  rw [takeIf] at h
  split at h
  next s₁ hcheck =>
    obtain ⟨next, hpeek, hfound⟩ := exists_peek_of_check hcheck
    rw [next_of_ahead (ahead_of_peek hpeek)] at h
    cases h
    cases hfound
  next s₁ hcheck =>
    cases h
    obtain ⟨next, hpeek, hfound⟩ := exists_peek_of_check hcheck
    cases eq_some_of_comesNext hpeek ht
    refine ⟨⟨_, hpeek⟩, ?_⟩
    simpa using hfound.symm
  next => cases h

end Stream

/-! ### Statements -/

lemma TokenKind.contains_filter_startsExpression (kind : TokenKind) :
    (TokenKind.all.filter (·.startsExpression)).contains kind = kind.startsExpression := by
  cases kind with
  | identifier => rfl
  | number => rfl
  | keyword k => cases k <;> rfl
  | mark m => cases m <;> rfl

/-- Reading a program, as a machine. -/
def Reader.machine : TokenMachine Reader Program := ⟨Reader.step, Reader.finish⟩

/-- A body that is being read: the functions before it, the start of its function, and the
statements so far. -/
structure OpenBody where
  functions : List Function
  location : Option Location
  name : String
  statements : List Node

namespace OpenBody

/-- The reader between two statements. -/
def reader (b : OpenBody) : Reader := ⟨b.functions, .body b.location b.name b.statements⟩

/-- The reader inside a statement. -/
def within (b : OpenBody) (statement : PartialStatement) : Reader :=
  ⟨b.functions, .inside b.location b.name b.statements statement⟩

/-- The body with one more statement. -/
def add (b : OpenBody) (statement : Node) : OpenBody :=
  { b with statements := b.statements ++ [statement] }

/-- What becomes of a body when a token has been taken inside a statement. -/
def resume (b : OpenBody) (advance : Except ParseError PartialStatement.Advance) :
    Except ParseError Reader :=
  match advance with
  | .ok (.more statement) => .ok (b.within statement)
  | .ok (.done statement) => .ok (b.add statement).reader
  | .error e => .error e

variable {b : OpenBody} {s : Stream}

lemma step_within (b : OpenBody) (statement : PartialStatement) (t : Token) :
    Reader.machine.step (b.within statement) t = b.resume (statement.step t) := by
  simp only [Reader.machine, within, Reader.step, resume]
  rcases statement.step t with e | statement | node <;> rfl

/-- An expression is read inside a statement. -/
lemma holds_within (b : OpenBody) (inside : Progress → PartialStatement)
    {after : Token → Node → Except ParseError PartialStatement.Advance} {expected : String}
    (hstep : ∀ p t, (inside p).step t = PartialStatement.inExpression p t inside (after t))
    (hlack : ∀ p, (inside p).lack = PartialStatement.lack.lackAfter p expected) :
    Reader.machine.Holds 0 (fun p => b.within (inside p)) (fun x t => b.resume (after t x))
      (fun _ => .error (.unexpectedEnd (some expected))) := by
  constructor
  · intro p t
    rw [step_within, hstep, PartialStatement.inExpression]
    rcases p.step 0 t with e | q | x <;> rfl
  · intro p
    show Except.error (inside p).lack = _
    rw [hlack, PartialStatement.lack.lackAfter]
    cases p.finish <;> rfl

/-- Takes the semicolon after a statement, and reads on. -/
def runAfter (b : OpenBody) (statement : Node) (s : Stream) : Except Failure Program :=
  s.use (Stream.expect (.mark .semicolon) (some "';' after statement")) >>= fun r =>
    Reader.machine.run (b.add statement).reader r.rest

/-- A statement is complete where only a semicolon is wanted. -/
lemma run_of_endStatement {q : Reader} {statement : Node}
    (hfinish : Reader.machine.finish q = .error (.unexpectedEnd (some "';' after statement")))
    (hstep : ∀ t, s.ComesNext t →
      Reader.machine.step q t = b.resume (PartialStatement.endStatement statement t)) :
    Reader.machine.run q s = b.runAfter statement s := by
  refine TokenMachine.run_of_expect (by decide) hfinish fun t ht => ?_
  rw [hstep t ht, PartialStatement.endStatement]
  cases t.isMark .semicolon <;> rfl

/-- The last expression of a statement, and its semicolon. -/
lemma run_lastExpression (b : OpenBody) (inside : Progress → PartialStatement)
    {statement : Node → Node}
    (hstep : ∀ p t, (inside p).step t = PartialStatement.inExpression p t inside fun x =>
      PartialStatement.endStatement (statement x) t)
    (hlack : ∀ p, (inside p).lack = PartialStatement.lack.lackAfter p "';' after statement")
    (s : Stream) :
    Reader.machine.run (b.within (inside .start)) s =
      s.readExpression 0 >>= fun r => b.runAfter (statement r.value) r.rest := by
  have h := b.holds_within inside hstep hlack
  rw [Progress.start, h.run_expression [] s]
  refine bind_congr_of_ok ?_
  rintro ⟨x, s₁, h₁⟩ hx
  have hstops := Stream.stopsAt_of_readExpression hx
  exact run_of_endStatement (h.finish _) fun t ht => h.step_whole hstops ht

/-- The value of `return` is there if the next token may begin it. -/
lemma run_giveBack (b : OpenBody) (l : Option Location) (s : Stream) :
    Reader.machine.run (b.within (.giveBack l)) s =
      s.readGiveBack l >>= fun r => b.runAfter r.value r.rest := by
  rw [Stream.readGiveBack, bind_assoc, TokenMachine.run_of_looks (Stream.looks_check _)]
  refine bind_congr ?_
  rintro ⟨valued, s₁, hcheck⟩
  obtain ⟨next, hpeek, hvalued⟩ := Stream.exists_peek_of_check hcheck
  simp only [TokenKind.contains_filter_startsExpression] at hvalued
  cases valued with
  | true =>
    have hvalue : Reader.machine.run (b.within (.giveBack l)) s₁ =
        Reader.machine.run (b.within (.giveBackValue l .start)) s₁ := by
      refine TokenMachine.run_congr (fun t ht => ?_) fun hend => ?_
      · cases Stream.eq_some_of_comesNext hpeek ht
        have hstarts : t.kind.startsExpression = true := hvalued.symm
        rw [step_within, step_within, PartialStatement.step, if_pos hstarts]
        rfl
      · rw [Stream.peek_of_peek hpeek] at hend
        cases hend
        cases hvalued
    show Reader.machine.run (b.within (.giveBack l)) s₁ = _
    rw [hvalue, b.run_lastExpression (.giveBackValue l) (fun _ _ => rfl) (fun _ => rfl) s₁]
    simp only [if_true, bind_assoc]
    rfl
  | false =>
    refine run_of_endStatement rfl fun t ht => ?_
    cases Stream.eq_some_of_comesNext hpeek ht
    have hstarts : t.kind.startsExpression = false := hvalued.symm
    rw [step_within, PartialStatement.step, hstarts]
    rfl

lemma run_assign (b : OpenBody) (l : Option Location) (s : Stream) :
    Reader.machine.run (b.within (.assign l)) s =
      s.readAssign l >>= fun r => b.runAfter r.value r.rest := by
  have hname : Reader.machine.run (b.within (.assign l)) s =
      s.use (Stream.expectIdentifier "variable name") >>= fun r =>
        Reader.machine.run (b.within (.assignName l r.value)) r.rest := by
    refine TokenMachine.run_of_expectIdentifier (g := fun name => b.within (.assignName l name))
      (by decide) rfl fun t => ?_
    rw [step_within, PartialStatement.step]
    cases t.lexeme <;> rfl
  have hequals : ∀ name s₁, Reader.machine.run (b.within (.assignName l name)) s₁ =
      s₁.use (Stream.expect (.mark .equals) (some "'='")) >>= fun r =>
        Reader.machine.run (b.within (.assignValue l name .start)) r.rest := by
    intro name s₁
    refine TokenMachine.run_of_expect (by decide) rfl fun t _ => ?_
    rw [step_within, PartialStatement.step]
    cases t.isMark .equals <;> rfl
  rw [Stream.readAssign, bind_assoc, hname]
  refine bind_congr ?_
  rintro ⟨name, s₁, h₁⟩
  rw [bind_assoc, hequals]
  refine bind_congr ?_
  rintro ⟨_, s₂, h₂⟩
  rw [b.run_lastExpression (.assignValue l name) (fun _ _ => rfl) (fun _ => rfl) s₂, bind_assoc]
  rfl

/-- The condition of `if`, and the parenthesis that closes it. -/
lemma run_testing (b : OpenBody) (l : Option Location) (s : Stream) :
    Reader.machine.run (b.within (.testing l .start)) s = s.readExpression 0 >>= fun r =>
      r.rest.use (Stream.expect (.mark .closeParen) (some "')'")) >>= fun r' =>
        Reader.machine.run (b.within (.whenTrue l r.value .start)) r'.rest := by
  have h := b.holds_within (.testing l) (fun _ _ => rfl) fun _ => rfl
  rw [Progress.start, h.run_expression [] s]
  refine bind_congr_of_ok ?_
  rintro ⟨condition, s₁, h₁⟩ hcondition
  refine TokenMachine.run_of_expect (by decide) rfl fun t ht => ?_
  rw [h.step_whole (Stream.stopsAt_of_readExpression hcondition) ht]
  cases t.isMark .closeParen <;> rfl

/-- The first branch of `if`. Where no `else` follows it, the statement is complete. -/
lemma run_whenTrue (b : OpenBody) (l : Option Location) (condition : Node) (s : Stream) :
    Reader.machine.run (b.within (.whenTrue l condition .start)) s =
      s.readExpression 0 >>= fun r =>
        r.rest.use (Stream.takeIf [.keyword .kwElse]) >>= fun r' =>
          if r'.value.isSome then
            Reader.machine.run (b.within (.whenFalse l condition r.value .start)) r'.rest
          else b.runAfter (.conditional condition r.value .missing l) r'.rest := by
  have h := b.holds_within (.whenTrue l condition) (fun _ _ => rfl) fun _ => rfl
  rw [Progress.start, h.run_expression [] s]
  refine bind_congr_of_ok ?_
  rintro ⟨branch, s₁, h₁⟩ hbranch
  have hstops := Stream.stopsAt_of_readExpression hbranch
  have helse : ∀ t, s₁.ComesNext t → t.kind = .keyword .kwElse →
      Reader.machine.step (b.within (.whenTrue l condition (.reached branch []))) t =
        .ok (b.within (.whenFalse l condition branch .start)) := by
    intro t ht hkind
    rw [h.step_whole hstops ht, Token.isKeyword, if_pos (beq_iff_eq.mpr hkind)]
    rfl
  refine (TokenMachine.run_of_takeIf rfl helse fun _ _ _ => rfl).trans (bind_congr ?_)
  rintro ⟨_ | _, s₂, h₂⟩
  · refine run_of_endStatement rfl fun t ht => ?_
    obtain ⟨ht', hkind⟩ := Stream.comesNext_of_takeIf h₂ ht
    refine (h.step_whole hstops ht').trans ?_
    rw [Token.isKeyword, if_neg (mt beq_iff_eq.mp hkind)]
  · rfl

lemma run_conditional (b : OpenBody) (l : Option Location) (s : Stream) :
    Reader.machine.run (b.within (.conditional l)) s =
      s.readConditional l >>= fun r => b.runAfter r.value r.rest := by
  have hopen : Reader.machine.run (b.within (.conditional l)) s =
      s.use (Stream.expect (.mark .openParen) (some "'(' after 'if'")) >>= fun r =>
        Reader.machine.run (b.within (.testing l .start)) r.rest := by
    refine TokenMachine.run_of_expect (by decide) rfl fun t _ => ?_
    rw [step_within, PartialStatement.step]
    cases t.isMark .openParen <;> rfl
  rw [Stream.readConditional, bind_assoc, hopen]
  refine bind_congr ?_
  rintro ⟨_, s₁, h₁⟩
  rw [bind_assoc, run_testing]
  refine bind_congr ?_
  rintro ⟨condition, s₂, h₂⟩
  rw [bind_assoc]
  refine bind_congr ?_
  rintro ⟨_, s₃, h₃⟩
  rw [bind_assoc, run_whenTrue]
  refine bind_congr ?_
  rintro ⟨thenBranch, s₄, h₄⟩
  rw [bind_assoc]
  refine bind_congr ?_
  rintro ⟨_ | _, s₅, h₅⟩
  · rfl
  · refine (b.run_lastExpression (.whenFalse l condition thenBranch) (fun _ _ => rfl)
      (fun _ => rfl) s₅).trans ?_
    rw [bind_assoc]
    rfl

/-- A token that begins a statement, and the statement up to its semicolon. -/
lemma run_statement (b : OpenBody) {t : Token} (ht : ¬ t.isMark .closeBrace = true) (s : Stream) :
    ((Reader.machine.step b.reader t).mapError .parse >>= fun q => Reader.machine.run q s) =
      s.readStatement t >>= fun r => b.runAfter r.value r.rest := by
  obtain ⟨lexeme, l⟩ := t
  cases lexeme with
  | identifier name => rfl
  | number value => rfl
  | mark m =>
    simp only [Reader.machine, reader, Reader.step, if_neg ht]
    rfl
  | keyword k =>
    cases k with
    | kwReturn => exact b.run_giveBack l s
    | kwLet => exact b.run_assign l s
    | kwIf => exact b.run_conditional l s
    | kwFun => rfl
    | kwElse => rfl

/-- The statements of a body, up to the brace that closes it or to the end of the tokens. -/
lemma run_statements (b : OpenBody) {s : Stream} (hs : s.ahead = none) :
    Reader.machine.run b.reader s = s.readStatements b.statements >>= fun r =>
      Reader.machine.run ⟨b.functions ++ [⟨b.name, r.value, b.location⟩], .outside⟩ r.rest := by
  rw [Stream.readStatements, bind_assoc, TokenMachine.run]
  refine bind_congr ?_
  rintro ⟨_ | t, s₁, h₁⟩
  · -- the last body need not be closed, and no function follows it
    show _ = Reader.machine.run ⟨_, .outside⟩ s₁
    have hend : s₁.next.1 = .ok none := Stream.peek_of_next_none hs h₁
    rw [TokenMachine.run_eq, hend]
    rfl
  · dsimp only
    split
    next ht =>
      have hstep : Reader.machine.step b.reader t =
          .ok ⟨b.functions ++ [⟨b.name, b.statements, b.location⟩], .outside⟩ := by
        simp only [Reader.machine, reader, Reader.step, if_pos ht]
      rw [hstep]
      rfl
    next ht =>
      rw [b.run_statement ht s₁, bind_assoc]
      refine bind_congr ?_
      rintro ⟨statement, s₂, h₂⟩
      rw [runAfter, bind_assoc]
      refine bind_congr ?_
      rintro ⟨_, s₃, h₃⟩
      rw [(b.add statement).run_statements (Stream.ahead_of_expect h₃), bind_assoc]
      rfl
termination_by s.size
decreasing_by grind

end OpenBody

/-! ### Functions -/

namespace Reader

/-- A function, where there is a token to begin it with. -/
lemma run_function (functions : List Function) {s : Stream} {t : Token} (ht : s.ComesNext t) :
    machine.run ⟨functions, .outside⟩ s = s.readFunction >>= fun r =>
      machine.run ⟨functions ++ [r.value], .outside⟩ r.rest := by
  have hname : ∀ l s₁, machine.run ⟨functions, .announced l⟩ s₁ =
      s₁.use (Stream.expectIdentifier "function name") >>= fun r =>
        machine.run ⟨functions, .named l r.value⟩ r.rest := by
    intro l s₁
    refine TokenMachine.run_of_expectIdentifier
      (g := fun name => Reader.mk functions (.named l name)) (by decide) rfl fun t => ?_
    obtain ⟨lexeme, l⟩ := t
    cases lexeme <;> rfl
  have hopen : ∀ l name s₁, machine.run ⟨functions, .named l name⟩ s₁ =
      s₁.use (Stream.expect (.mark .openParen) (some "'('")) >>= fun r =>
        machine.run ⟨functions, .opened l name⟩ r.rest := by
    intro l name s₁
    exact TokenMachine.run_of_expect (by decide) rfl fun _ _ => rfl
  have hclose : ∀ l name s₁, machine.run ⟨functions, .opened l name⟩ s₁ =
      s₁.use (Stream.expect (.mark .closeParen) (some "')' (functions take no parameters)")) >>=
        fun r => machine.run ⟨functions, .closed l name⟩ r.rest := by
    intro l name s₁
    exact TokenMachine.run_of_expect (by decide) rfl fun _ _ => rfl
  have hbrace : ∀ l name s₁, machine.run ⟨functions, .closed l name⟩ s₁ =
      s₁.use (Stream.expect (.mark .openBrace) (some "'\x7b'")) >>= fun r =>
        machine.run (OpenBody.mk functions l name []).reader r.rest := by
    intro l name s₁
    exact TokenMachine.run_of_expect (by decide) rfl fun _ _ => rfl
  rw [Stream.readFunction, bind_assoc, TokenMachine.run]
  refine bind_congr ?_
  rintro ⟨header, s₁, h₁⟩
  obtain ⟨s₀, hpeek⟩ := ht
  rw [Stream.next, hpeek] at h₁
  cases h₁
  rw [bind_assoc]
  refine (hname t.location _).trans (bind_congr ?_)
  rintro ⟨name, s₂, h₂⟩
  rw [bind_assoc, hopen]
  refine bind_congr ?_
  rintro ⟨_, s₃, h₃⟩
  rw [bind_assoc, hclose]
  refine bind_congr ?_
  rintro ⟨_, s₄, h₄⟩
  rw [bind_assoc, hbrace]
  refine bind_congr ?_
  rintro ⟨_, s₅, h₅⟩
  rw [bind_assoc]
  exact (OpenBody.mk functions t.location name []).run_statements (Stream.ahead_of_expect h₅)

/-- Functions, up to the end of the tokens. -/
lemma run_functions (functions : List Function) (s : Stream) :
    machine.run ⟨functions, .outside⟩ s = s.readFunctions functions := by
  rw [Stream.readFunctions, TokenMachine.run_of_looks Stream.looks_atEnd]
  refine bind_congr ?_
  rintro ⟨ended, s₁, h₁⟩
  obtain ⟨next, hpeek, rfl⟩ := Stream.exists_peek_of_atEnd h₁
  have hlooked := Stream.peek_of_peek hpeek
  cases next with
  | none =>
    show machine.run ⟨functions, .outside⟩ s₁ = _
    rw [TokenMachine.run_eq, Stream.next, hlooked]
    rfl
  | some t =>
    show machine.run ⟨functions, .outside⟩ s₁ = s₁.readFunction >>= _
    rw [run_function functions ⟨s₁, hlooked⟩]
    refine bind_congr ?_
    rintro ⟨f, s₂, h₂⟩
    exact run_functions (functions ++ [f]) s₂
termination_by s.size
decreasing_by grind

end Reader

/-! ### Lists and texts -/

/-- A token of a text is taken from it. -/
lemma Stream.next_ofFeed_pass {c d : Cursor} {t : Token}
    (h : c.next = (some (.token t), d)) :
    (ofFeed (.pass ⟨c, false⟩)).next = (.ok (some t), ofFeed (.pass ⟨d, false⟩)) := by
  simp only [next, peek, ofFeed, Feed.next, Pass.next_of_token h]

namespace Reader

/-- Over a list of tokens. -/
lemma run_list (r : Reader) (tokens : List Token) :
    machine.run r (.ofFeed (.list tokens)) = (r.readTokens tokens).mapError .parse := by
  induction tokens generalizing r with
  | nil =>
    rw [TokenMachine.run_eq]
    rfl
  | cons t tokens ih =>
    rw [TokenMachine.run_eq, readTokens]
    show (r.step t).mapError _ >>= _ = _
    cases r.step t with
    | error e => rfl
    | ok r' => exact ih r'

/-- Over a text, whose tokens are read as they are needed. -/
lemma run_pass (r : Reader) (c : Cursor) :
    machine.run r (.ofFeed (.pass ⟨c, false⟩)) = r.readText c := by
  fun_induction Reader.readText r c with
  | case1 r c d hnext =>
    have hend : (Stream.ofFeed (.pass ⟨c, false⟩)).next = (.ok none, .ofFeed (.pass ⟨d, true⟩)) := by
      simp only [Stream.next, Stream.peek, Stream.ofFeed, Feed.next, Pass.next_of_none hnext]
    rw [TokenMachine.run_eq, hend]
    rfl
  | case2 r c e d hnext =>
    have hfault : (Stream.ofFeed (.pass ⟨c, false⟩)).next =
        (.error (.scan e), .ofFeed (.pass ⟨d, true⟩)) := by
      simp only [Stream.next, Stream.peek, Stream.ofFeed, Feed.next, Pass.next_of_fault hnext]
    rw [TokenMachine.run_eq, hfault]
    rfl
  | case3 r c t d hnext r' hstep ih =>
    rw [← ih, TokenMachine.run_eq, Stream.next_ofFeed_pass hnext]
    show (r.step t).mapError _ >>= _ = _
    rw [hstep]
    rfl
  | case4 r c t d hnext e hstep =>
    rw [TokenMachine.run_eq, Stream.next_ofFeed_pass hnext]
    show (r.step t).mapError _ >>= _ = _
    rw [hstep]
    rfl

end Reader

namespace Stream

/-- Functions are read by descent from a list of tokens as they are read token by token. -/
theorem readFunctions_list (functions : List Function) (tokens : List Token) :
    (ofFeed (.list tokens)).readFunctions functions =
      (Reader.readTokens ⟨functions, .outside⟩ tokens).mapError .parse := by
  rw [← Reader.run_functions, Reader.run_list]

/-- Functions are read by descent from a text as they are read token by token, with every token
being read when it is needed. -/
theorem readFunctions_pass (functions : List Function) (c : Cursor) :
    (ofFeed (.pass ⟨c, false⟩)).readFunctions functions =
      Reader.readText ⟨functions, .outside⟩ c := by
  rw [← Reader.run_functions, Reader.run_pass]

/-- The program of a list of tokens. -/
theorem readProgram_list (tokens : List Token) :
    (ofFeed (.list tokens)).readProgram = (parse tokens).mapError .parse :=
  readFunctions_list [] tokens

/-- The program of a text. -/
theorem readProgram_text (file source : String) :
    (ofFeed (.pass (.ofText file source))).readProgram = parseOnDemand file source :=
  readFunctions_pass [] (.ofText file source)

end Stream

end TinyCompiler
