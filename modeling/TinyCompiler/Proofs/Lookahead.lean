import TinyCompiler.Proofs.Demand
import TinyCompiler.Token.Stream

/-!
# Lookahead as an index

A stream holds a feed and a token that was looked at and not taken yet. Seen from outside it is an
index into a list of tokens: every way of using it gives what the token at the index decides
(`Stream.Call.result`), and moves the index by one or not at all (`Stream.Call.moves`).

Over a text whose tokens are read as they are needed the list is that of the tokens before the first
fault. The first call that finds no token left meets the fault, and from then on the stream is one
that stands at its end (`Stream.answers_ofFeed`).
-/

namespace TinyCompiler

/-! ### What a feed still delivers -/

/-- The fault that ends reading on, if there is one. -/
def Cursor.fault? (c : Cursor) : Option ScanError :=
  match c.drain.1 with
  | .ok _ => none
  | .error e => some e

namespace Feed

/-- The tokens that a feed delivers before it ends or meets a fault. -/
def left : Feed → List Token
  | .list tokens => tokens
  | .pass p => if p.ended then [] else p.cursor.leading

/-- The fault that a feed meets after its tokens, if there is one. -/
def fault? : Feed → Option ScanError
  | .list _ => none
  | .pass p => if p.ended then none else p.cursor.fault?

/-- Nothing comes from a feed any more. -/
structure IsOver (feed : Feed) : Prop where
  left : feed.left = []
  fault : feed.fault? = none

/-- What a feed can do when it is asked for a token: it delivers the first one that is left, it meets
the fault, or it has come to its end. After the fault it has come to its end as well. -/
lemma next_cases (feed : Feed) :
    (∃ t feed', feed.next = (.ok (some t), feed') ∧ feed.left = t :: feed'.left ∧
      feed'.fault? = feed.fault?) ∨
    (∃ e feed', feed.next = (.error e, feed') ∧ feed.left = [] ∧ feed.fault? = some e ∧
      feed'.IsOver) ∨
    ∃ feed', feed.next = (.ok none, feed') ∧ feed.IsOver ∧ feed'.IsOver := by
  match feed with
  | .list [] => exact .inr (.inr ⟨.list [], rfl, ⟨rfl, rfl⟩, ⟨rfl, rfl⟩⟩)
  | .list (t :: tokens) => exact .inl ⟨t, .list tokens, rfl, rfl, rfl⟩
  | .pass ⟨c, true⟩ => exact .inr (.inr ⟨.pass ⟨c, true⟩, rfl, ⟨rfl, rfl⟩, ⟨rfl, rfl⟩⟩)
  | .pass ⟨c, false⟩ =>
    cases hnext : c.next with | mk reading d =>
    match reading with
    | none =>
      have hdrain := Cursor.drain_of_next_none hnext
      refine .inr (.inr ⟨.pass ⟨d, true⟩, ?_, ⟨?_, ?_⟩, ⟨rfl, rfl⟩⟩)
      · simp only [next, Pass.next_of_none hnext]
      · simp [left, Cursor.leading_of_next_none hnext]
      · simp [fault?, Cursor.fault?, hdrain]
    | some (.fault e) =>
      have hdrain := Cursor.drain_of_next_fault hnext
      refine .inr (.inl ⟨e, .pass ⟨d, true⟩, ?_, ?_, ?_, ⟨rfl, rfl⟩⟩)
      · simp only [next, Pass.next_of_fault hnext]
      · simp [left, Cursor.leading_of_next_fault hnext]
      · simp [fault?, Cursor.fault?, hdrain]
    | some (.token t) =>
      have hdrain := Cursor.drain_of_next_token hnext
      refine .inl ⟨t, .pass ⟨d, false⟩, ?_, ?_, ?_⟩
      · simp only [next, Pass.next_of_token hnext]
      · simp [left, Cursor.leading_of_next_token hnext]
      · simp only [fault?, Cursor.fault?, hdrain]
        cases d.drain.1 <;> rfl

end Feed

/-! ### Calls -/

namespace Stream

/-- A way of using a stream. -/
inductive Call where
  | peek
  | next
  | atEnd
  | check (kinds : List TokenKind)
  | takeIf (kinds : List TokenKind)
  | expectNext (expected : Option String)
  | expect (kind : TokenKind) (expected : Option String)
  | expectIdentifier (expected : String)
  deriving DecidableEq

/-- What a call gives if it does not fail. -/
inductive Answer where
  | token (t : Option Token)
  | flag (b : Bool)
  | name (name : String)
  deriving DecidableEq

/-- Uses a stream. -/
def perform (s : Stream) : Call → Except Failure Answer × Stream
  | .peek => s.peek.map (·.map .token) id
  | .next => s.next.map (·.map .token) id
  | .atEnd => s.atEnd.map (·.map .flag) id
  | .check kinds => (s.check kinds).map (·.map .flag) id
  | .takeIf kinds => (s.takeIf kinds).map (·.map .token) id
  | .expectNext expected => (s.expectNext expected).map (·.map (.token ∘ some)) id
  | .expect kind expected => (s.expect kind expected).map (·.map (.token ∘ some)) id
  | .expectIdentifier expected => (s.expectIdentifier expected).map (·.map .name) id

/-- What calls give one after the other. A call that fails leaves a stream that can be used on. -/
def answers (s : Stream) : List Call → List (Except Failure Answer)
  | [] => []
  | call :: calls => (s.perform call).1 :: (s.perform call).2.answers calls

namespace Call

/-- How a kind that was expected is described: in the given words, or else by its small name. -/
def description (kind : TokenKind) : (expected : Option String) → String
  | none => kind.smallName
  | some expected => if expected = "" then kind.smallName else expected

/-- What a call gives where the given token comes next, or where none is left. -/
def result : Call → Option Token → Except ParseError Answer
  | .peek, t | .next, t => .ok (.token t)
  | .atEnd, t => .ok (.flag t.isNone)
  | .check kinds, t => .ok (.flag (t.any fun t => kinds.contains t.kind))
  | .takeIf kinds, t => .ok (.token (t.filter fun t => kinds.contains t.kind))
  | .expectNext _, some t => .ok (.token (some t))
  | .expectNext expected, none => .error (.unexpectedEnd expected)
  | .expect kind expected, some t =>
    if t.kind = kind then .ok (.token (some t))
    else .error (.unexpectedToken t (some (description kind expected)))
  | .expect kind expected, none => .error (.unexpectedEnd (some (description kind expected)))
  | .expectIdentifier expected, some t =>
    match t.lexeme with
    | .identifier name => .ok (.name name)
    | _ => .error (.unexpectedToken t (some (description .identifier (some expected))))
  | .expectIdentifier expected, none =>
    .error (.unexpectedEnd (some (description .identifier (some expected))))

/-- How far a call moves on where the given token comes next: looking moves nowhere, nothing moves
past the end, and what takes a token moves past it, even if it then complains about the token. -/
def moves : Call → Option Token → Nat
  | .peek, _ | .atEnd, _ | .check _, _ => 0
  | _, none => 0
  | .takeIf kinds, some t => if kinds.contains t.kind then 1 else 0
  | .next, some _ | .expectNext _, some _ | .expect .., some _ | .expectIdentifier _, some _ => 1

end Call

variable {s : Stream} {feed : Feed} {t : Option Token}

/-! ### What a call does -/

lemma next_of_peek (h : s.peek = (.ok t, ⟨feed, some t⟩)) : s.next = (.ok t, ⟨feed, none⟩) := by
  rw [next, h]

lemma check_of_peek (h : s.peek = (.ok t, ⟨feed, some t⟩)) (kinds : List TokenKind) :
    s.check kinds = (.ok (t.any fun t => kinds.contains t.kind), ⟨feed, some t⟩) := by
  rw [check, h]
  rfl

/-- A token that was looked at is taken without asking the feed. -/
lemma takeIf_of_peek (h : s.peek = (.ok t, ⟨feed, some t⟩)) (kinds : List TokenKind) :
    s.takeIf kinds =
      if t.any fun t => kinds.contains t.kind then (.ok t, ⟨feed, none⟩)
      else (.ok none, ⟨feed, some t⟩) := by
  rw [takeIf, check_of_peek h]
  cases t.any fun t => kinds.contains t.kind with
  | true => exact next_of_peek rfl
  | false => rfl

/-- The description of what was expected is the one that complaints give. -/
lemma expect_eq (s : Stream) (kind : TokenKind) (expected : Option String) :
    s.expect kind expected =
      match s.expectNext (some (Call.description kind expected)) with
      | (.ok t, s) =>
        if t.kind = kind then (.ok t, s)
        else (.error (.parse (.unexpectedToken t (some (Call.description kind expected)))), s)
      | (.error e, s) => (.error e, s) := by
  cases expected with
  | none => rfl
  | some words =>
    have hdescription : Call.description kind (some words) =
        if words.isEmpty then kind.smallName else words := by
      simp [Call.description]
    rw [hdescription]
    rfl

/-- A call does what the token that comes next decides. Afterwards the token is still looked at, or
it has been taken. -/
lemma perform_of_peek (h : s.peek = (.ok t, ⟨feed, some t⟩)) (call : Call) :
    ∃ ahead, s.perform call = ((call.result t).mapError .parse, ⟨feed, ahead⟩) ∧
      (ahead = some t ∧ call.moves t = 0 ∨
        ahead = none ∧ call.moves t = if t.isSome then 1 else 0) := by
  cases call with
  | peek =>
    refine ⟨some t, ?_, .inl ⟨rfl, rfl⟩⟩
    rw [perform, h]
    rfl
  | next =>
    refine ⟨none, ?_, .inr ⟨rfl, ?_⟩⟩
    · rw [perform, next_of_peek h]
      rfl
    · cases t <;> rfl
  | atEnd =>
    refine ⟨some t, ?_, .inl ⟨rfl, rfl⟩⟩
    rw [perform, atEnd, h]
    rfl
  | check kinds =>
    refine ⟨some t, ?_, .inl ⟨rfl, rfl⟩⟩
    rw [perform, check_of_peek h]
    rfl
  | takeIf kinds =>
    rw [perform, takeIf_of_peek h]
    cases t with
    | none => exact ⟨some none, rfl, .inl ⟨rfl, rfl⟩⟩
    | some t =>
      rw [Option.any_some, Call.result, Option.filter_some, Call.moves]
      cases kinds.contains t.kind with
      | true => exact ⟨none, rfl, .inr ⟨rfl, rfl⟩⟩
      | false => exact ⟨some (some t), rfl, .inl ⟨rfl, rfl⟩⟩
  | expectNext expected =>
    refine ⟨none, ?_, .inr ⟨rfl, ?_⟩⟩
    · rw [perform, expectNext, next_of_peek h]
      cases t <;> rfl
    · cases t <;> rfl
  | expect kind expected =>
    refine ⟨none, ?_, .inr ⟨rfl, ?_⟩⟩
    · rw [perform, expect_eq, expectNext, next_of_peek h]
      cases t with
      | none => rfl
      | some t =>
        rw [Call.result]
        by_cases hkind : t.kind = kind
        · simp only [if_pos hkind]
          rfl
        · simp only [if_neg hkind]
          rfl
    · cases t <;> rfl
  | expectIdentifier expected =>
    refine ⟨none, ?_, .inr ⟨rfl, ?_⟩⟩
    · rw [perform, expectIdentifier, expect_eq, expectNext, next_of_peek h]
      cases t with
      | none => rfl
      | some t =>
        obtain ⟨lexeme, location⟩ := t
        cases lexeme <;> rfl
    · cases t <;> rfl

/-- Where looking fails, every call fails in the same way. -/
lemma perform_of_peek_error {e : Failure} (h : s.peek = (.error e, ⟨feed, none⟩)) (call : Call) :
    s.perform call = (.error e, ⟨feed, none⟩) := by
  have hnext : s.next = (.error e, ⟨feed, none⟩) := by rw [next, h]
  have hcheck : ∀ kinds, s.check kinds = (.error e, ⟨feed, none⟩) := by
    intro kinds
    rw [check, h]
    rfl
  have hexpectNext : ∀ expected, s.expectNext expected = (.error e, ⟨feed, none⟩) := by
    intro expected
    rw [expectNext, hnext]
  have hexpect : ∀ kind expected, s.expect kind expected = (.error e, ⟨feed, none⟩) := by
    intro kind expected
    simp only [expect, hexpectNext]
  cases call with
  | peek => simp [perform, h, Except.map]
  | next => simp [perform, hnext, Except.map]
  | atEnd => simp [perform, atEnd, h, Except.map]
  | check kinds => simp [perform, hcheck, Except.map]
  | takeIf kinds => simp [perform, takeIf, hcheck, Except.map]
  | expectNext expected => simp [perform, hexpectNext, Except.map]
  | expect kind expected => simp [perform, hexpect, Except.map]
  | expectIdentifier expected => simp [perform, expectIdentifier, hexpect, Except.map]

end Stream

/-! ### The index -/

/-- An index into a list of tokens. -/
structure TokenIndex where
  tokens : List Token
  index : Nat
  deriving DecidableEq

namespace TokenIndex

/-- The token at the index. There is none at the end. -/
def token? (i : TokenIndex) : Option Token := i.tokens[i.index]?

/-- A call gives what the token at the index decides, and moves the index. -/
def perform (i : TokenIndex) (call : Stream.Call) : Except Failure Stream.Answer × TokenIndex :=
  ((call.result i.token?).mapError .parse, ⟨i.tokens, i.index + call.moves i.token?⟩)

/-- What calls give one after the other. -/
def answers (i : TokenIndex) : List Stream.Call → List (Except Failure Stream.Answer)
  | [] => []
  | call :: calls => (i.perform call).1 :: (i.perform call).2.answers calls

/-- What calls give where a fault stands behind the tokens: the first call that needs a token after
the last one fails with the fault, and every later call finds the end. -/
def answersBefore (e : ScanError) (i : TokenIndex) :
    List Stream.Call → List (Except Failure Stream.Answer)
  | [] => []
  | call :: calls =>
    if i.token?.isNone then .error (.scan e) :: i.answers calls
    else (i.perform call).1 :: (i.perform call).2.answersBefore e calls

/-- The token at the index is the first of those from the index on. -/
lemma token?_eq_head? (i : TokenIndex) : i.token? = (i.tokens.drop i.index).head? := by
  rw [token?, List.head?_drop]

end TokenIndex

namespace Stream

/-- The tokens of a stream that have not been taken. -/
def left (s : Stream) : List Token :=
  match s.ahead with
  | some t => t.toList ++ s.feed.left
  | none => s.feed.left

/-- A stream stands at an index: the tokens from the index on have not been taken, the fault is the
one that the feed will meet, and where the end was looked at, nothing comes any more. -/
structure StandsAt (s : Stream) (i : TokenIndex) (fault : Option ScanError) : Prop where
  left : s.left = i.tokens.drop i.index
  fault : s.feed.fault? = fault
  ended : s.ahead = some none → s.feed.IsOver

namespace StandsAt

variable {s : Stream} {i : TokenIndex} {fault : Option ScanError} {e : ScanError}

lemma ofFeed (feed : Feed) : (ofFeed feed).StandsAt ⟨feed.left, 0⟩ feed.fault? :=
  ⟨rfl, rfl, fun h => by cases h⟩

/-- Looking finds the token at the index and moves nothing, unless it meets the fault, which stands
after the last token and is met once. -/
lemma peek_cases (h : s.StandsAt i fault) :
    (∃ feed, s.peek = (.ok i.token?, ⟨feed, some i.token?⟩) ∧
      (Stream.mk feed (some i.token?)).StandsAt i fault) ∨
    ∃ e feed, fault = some e ∧ i.token? = none ∧ s.peek = (.error (.scan e), ⟨feed, none⟩) ∧
      (Stream.mk feed none).StandsAt i none := by
  obtain ⟨feed, ahead⟩ := s
  have htoken : i.token? = (Stream.mk feed ahead).left.head? := by
    rw [h.left, i.token?_eq_head?]
  match ahead with
  | some (some t) =>
    have ht : i.token? = some t := htoken
    rw [ht]
    exact .inl ⟨feed, rfl, h⟩
  | some none =>
    have ht : i.token? = none := by
      rw [htoken, Stream.left, (h.ended rfl).left]
      rfl
    rw [ht]
    exact .inl ⟨feed, rfl, h⟩
  | none =>
    have hleft : feed.left = i.tokens.drop i.index := h.left
    rcases feed.next_cases with ⟨t, feed', hnext, hcons, hfault⟩ |
      ⟨e, feed', hnext, hnil, he, hover⟩ | ⟨feed', hnext, hover, hover'⟩
    · have ht : i.token? = some t := by
        rw [htoken, Stream.left, hcons]
        rfl
      rw [ht]
      refine .inl ⟨feed', by simp only [peek, hnext], ?_, hfault.trans h.fault, ?_⟩
      · rw [← hleft, hcons]
        rfl
      · rintro ⟨⟩
    · have ht : i.token? = none := by
        rw [htoken, Stream.left, hnil]
        rfl
      refine .inr ⟨e, feed', h.fault.symm.trans he, ht, by simp only [peek, hnext], ?_,
        hover.fault, fun _ => hover⟩
      rw [← hleft, hnil]
      exact hover.left
    · have ht : i.token? = none := by
        rw [htoken, Stream.left, hover.left]
        rfl
      rw [ht]
      refine .inl ⟨feed', by simp only [peek, hnext], ?_, ?_, fun _ => hover'⟩
      · rw [← hleft, hover.left]
        exact hover'.left
      · exact hover'.fault.trans (hover.fault.symm.trans h.fault)

/-- What was looked at and is taken is passed by the index. -/
lemma take {feed : Feed} {t : Option Token} (h : (Stream.mk feed (some t)).StandsAt i fault) :
    (Stream.mk feed none).StandsAt ⟨i.tokens, i.index + if t.isSome then 1 else 0⟩ fault := by
  have hleft : t.toList ++ feed.left = i.tokens.drop i.index := h.left
  refine ⟨?_, h.fault, fun hnone => by cases hnone⟩
  cases t with
  | none => exact hleft
  | some t =>
    have htail := congrArg List.tail hleft
    rwa [List.tail_drop] at htail

/-- A call gives what it gives at the index and keeps the stream there, unless it meets the fault. -/
lemma perform (h : s.StandsAt i fault) (call : Call) :
    ((s.perform call).1 = (i.perform call).1 ∧
      (s.perform call).2.StandsAt (i.perform call).2 fault ∧ (i.token? = none → fault = none)) ∨
    ∃ e, fault = some e ∧ i.token? = none ∧ (s.perform call).1 = .error (.scan e) ∧
      (s.perform call).2.StandsAt i none := by
  rcases h.peek_cases with ⟨feed, hpeek, hlooked⟩ | ⟨e, feed, he, ht, hpeek, hend⟩
  · obtain ⟨ahead, hperform, hahead⟩ := perform_of_peek hpeek call
    rw [hperform, TokenIndex.perform]
    refine .inl ⟨rfl, ?_, fun ht => ?_⟩
    · rcases hahead with ⟨rfl, hmoves⟩ | ⟨rfl, hmoves⟩
      · rw [hmoves]
        exact hlooked
      · rw [hmoves]
        exact hlooked.take
    · rw [ht] at hlooked
      exact hlooked.fault.symm.trans (hlooked.ended rfl).fault
  · rw [perform_of_peek_error hpeek call]
    exact .inr ⟨e, he, ht, rfl, hend⟩

/-- Where no fault will be met, calls give what they give at the index. -/
lemma answers_eq (h : s.StandsAt i none) (calls : List Call) :
    s.answers calls = i.answers calls := by
  induction calls generalizing s i with
  | nil => rfl
  | cons call calls ih =>
    rcases h.perform call with ⟨hanswer, hstands, -⟩ | ⟨e, he, -⟩
    · rw [answers, TokenIndex.answers, hanswer, ih hstands]
    · cases he

/-- Where a fault will be met, it comes in the place of the first answer at the end. -/
lemma answers_eq_answersBefore (h : s.StandsAt i (some e)) (calls : List Call) :
    s.answers calls = i.answersBefore e calls := by
  induction calls generalizing s i with
  | nil => rfl
  | cons call calls ih =>
    rw [answers, TokenIndex.answersBefore]
    rcases h.perform call with ⟨hanswer, hstands, hnone⟩ | ⟨e', he, ht, hanswer, hstands⟩
    · have ht : ¬ i.token?.isNone := by
        intro ht
        cases hnone (Option.isNone_iff_eq_none.mp ht)
      rw [if_neg ht, hanswer, ih hstands]
    · cases he
      rw [ht, hanswer, hstands.answers_eq]
      rfl

end StandsAt

end Stream

/-- A stream is used like an index into its list of tokens, whatever calls are made in whatever
order. Over a text from some place on, the list is that of the tokens of the text. If reading the
text on fails, it is that of the tokens before the fault, and the first call that needs a token after
them fails with the fault. -/
theorem Stream.answers_ofFeed (calls : List Call) :
    (∀ tokens : List Token,
      (ofFeed (.list tokens)).answers calls = (TokenIndex.mk tokens 0).answers calls) ∧
    ∀ c : Cursor,
      (ofFeed (.pass ⟨c, false⟩)).answers calls =
        match c.drain.1 with
        | .ok tokens => (TokenIndex.mk tokens 0).answers calls
        | .error e => (TokenIndex.mk c.leading 0).answersBefore e calls := by
  constructor
  · intro tokens
    exact (StandsAt.ofFeed (.list tokens)).answers_eq calls
  · intro c
    have hstands := StandsAt.ofFeed (.pass ⟨c, false⟩)
    cases hdrain : c.drain.1 with
    | ok tokens =>
      have hfault : (Feed.pass ⟨c, false⟩).fault? = none := by
        simp [Feed.fault?, Cursor.fault?, hdrain]
      have hleft : (Feed.pass ⟨c, false⟩).left = tokens := Cursor.leading_of_drain hdrain
      rw [hfault, hleft] at hstands
      exact hstands.answers_eq calls
    | error e =>
      have hfault : (Feed.pass ⟨c, false⟩).fault? = some e := by
        simp [Feed.fault?, Cursor.fault?, hdrain]
      rw [hfault] at hstands
      exact hstands.answers_eq_answersBefore calls

-- the fault comes once, to the call that needs the token after the name, and then the end comes
example : (Stream.ofFeed (.pass (.ofText "a" "x @ y"))).answers
      [.check [.number], .expect .number none, .peek, .atEnd, .expectIdentifier ""] =
    [.ok (.flag false),
      .error (.parse (.unexpectedToken ⟨.identifier "x", some ⟨"a", 1, 1⟩⟩ (some "number"))),
      .error (.scan ⟨.strayCharacter '@', some ⟨"a", 1, 3⟩⟩), .ok (.flag true),
      .error (.parse (.unexpectedEnd (some "identifier")))] := by decide +kernel

end TinyCompiler
