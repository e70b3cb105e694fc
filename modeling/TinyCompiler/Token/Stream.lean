import TinyCompiler.Token.Cursor

/-!
# Tokens with one token of lookahead

A feed delivers tokens, either those of a list or those of a pass over a text, which are then read
only when they are asked for. A stream looks one token ahead in a feed: what was looked at is kept
until it is taken. At the end of the tokens every look asks the feed again and finds the end again.
-/

namespace TinyCompiler

/-- Where tokens come from. -/
inductive Feed where
  | list (tokens : List Token)
  | pass (p : Pass)
  deriving DecidableEq, Repr

namespace Feed

/-- Delivers the next token, or nothing at the end. -/
def next : Feed → Except ScanError (Option Token) × Feed
  | .list [] => (.ok none, .list [])
  | .list (t :: ts) => (.ok (some t), .list ts)
  | .pass p =>
    match p.next with
    | (none, p) => (.ok none, .pass p)
    | (some (.token t), p) => (.ok (some t), .pass p)
    | (some (.fault e), p) => (.error e, .pass p)

/-- No more tokens than this are left to deliver. -/
def size : Feed → Nat
  | .list tokens => tokens.length
  | .pass p => p.cursor.rest.length

/-- A token that is delivered makes a feed smaller. -/
theorem size_next_le {feed feed' : Feed} {t : Option Token} (h : feed.next = (.ok t, feed')) :
    feed'.size + t.toList.length ≤ feed.size := by
  match feed with
  | .list [] | .list (_ :: _) | .pass ⟨_, true⟩ =>
    cases h
    exact Nat.le_refl _
  | .pass ⟨c, false⟩ =>
    cases hnext : c.next with | mk reading d =>
    have hle := Cursor.length_next_le hnext
    match reading with
    | none | some (.token _) =>
      simp only [next, Pass.next, hnext, Bool.false_eq_true, if_false] at h
      cases h
      exact hle
    | some (.fault e) =>
      simp only [next, Pass.next, hnext, Bool.false_eq_true, if_false] at h
      cases h

end Feed

/-- A feed, and what was looked at and not taken yet: `some none` is the end of the tokens. -/
structure Stream where
  feed : Feed
  ahead : Option (Option Token)
  deriving DecidableEq, Repr

namespace Stream

/-- A stream in which nothing was looked at yet. -/
def ofFeed (feed : Feed) : Stream := ⟨feed, none⟩

/-- What using a stream gives: a result or a failure, and the stream after it in either case. -/
abbrev Use (α : Type) := Stream → Except Failure α × Stream

/-- Looks at the next token. A fault leaves nothing kept. -/
def peek : Use (Option Token) := fun s =>
  match s.ahead with
  | some t => (.ok t, s)
  | none =>
    match s.feed.next with
    | (.ok t, feed) => (.ok t, ⟨feed, some t⟩)
    | (.error e, feed) => (.error (.scan e), ⟨feed, none⟩)

/-- Takes the next token. -/
def next : Use (Option Token) := fun s =>
  let (t, s) := s.peek
  (t, ⟨s.feed, none⟩)

/-- Whether no token is left. -/
def atEnd : Use Bool := fun s =>
  let (t, s) := s.peek
  (t.map (·.isNone), s)

/-- Whether the next token is of one of the given kinds. -/
def check (kinds : List TokenKind) : Use Bool := fun s =>
  let (t, s) := s.peek
  (t.map (·.any fun t => kinds.contains t.kind), s)

/-- Takes the next token if it is of one of the given kinds. -/
def takeIf (kinds : List TokenKind) : Use (Option Token) := fun s =>
  match s.check kinds with
  | (.ok true, s) => s.next
  | (.ok false, s) => (.ok none, s)
  | (.error e, s) => (.error e, s)

/-- Takes the next token, which must be there. -/
def expectNext (expected : Option String) : Use Token := fun s =>
  match s.next with
  | (.ok (some t), s) => (.ok t, s)
  | (.ok none, s) => (.error (.parse (.unexpectedEnd expected)), s)
  | (.error e, s) => (.error e, s)

/-- Takes the next token, which must be of the given kind; one of another kind is taken as well. An
empty description stands for the small name of the kind. -/
def expect (kind : TokenKind) (expected : Option String) : Use Token := fun s =>
  let expected := match expected with
    | some e => if e.isEmpty then kind.smallName else e
    | none => kind.smallName
  match s.expectNext (some expected) with
  | (.ok t, s) =>
    if t.kind = kind then (.ok t, s)
    else (.error (.parse (.unexpectedToken t (some expected))), s)
  | (.error e, s) => (.error e, s)

/-- Takes the next token, which must be a name. -/
def expectIdentifier (expected : String) : Use String := fun s =>
  match s.expect .identifier (some expected) with
  | (.ok t, s) =>
    match t.lexeme with
    | .identifier name => (.ok name, s)
    | _ => (.error (.parse (.unexpectedToken t (some expected))), s)
  | (.error e, s) => (.error e, s)

/-! ### What is left

With every token that is taken a stream becomes smaller, and looking does not make it larger. What
takes tokens until something comes can therefore be written as a recursion on what is left. -/

/-- No more tokens than this are left to take: the one that was looked at, and those of the feed. -/
def size (s : Stream) : Nat := (s.ahead.getD none).toList.length + s.feed.size

section Size

variable {s s' s'' : Stream} {t : Option Token}

theorem ahead_of_peek (h : s.peek = (.ok t, s')) : s'.ahead = some t := by
  obtain ⟨feed, ahead⟩ := s
  cases ahead with
  | some t' =>
    cases h
    rfl
  | none =>
    simp only [peek] at h
    split at h <;> cases h
    rfl

@[grind →]
theorem size_peek_le (h : s.peek = (.ok t, s')) : s'.size ≤ s.size := by
  obtain ⟨feed, ahead⟩ := s
  cases ahead with
  | some t' =>
    cases h
    exact Nat.le_refl _
  | none =>
    simp only [peek] at h
    split at h
    next t' feed' hnext =>
      cases h
      have hle := Feed.size_next_le hnext
      simp only [size, Option.getD_some, Option.getD_none, Option.toList_none, List.length_nil]
      omega
    next => cases h

/-- What was looked at is taken. -/
theorem next_of_ahead (h : s.ahead = some t) : s.next = (.ok t, ⟨s.feed, none⟩) := by
  simp only [next, peek, h]

@[grind →]
theorem size_next_le (h : s.next = (.ok t, s')) : s'.size + t.toList.length ≤ s.size := by
  rw [next] at h
  cases hpeek : s.peek with | mk result s₁ =>
  rw [hpeek] at h
  cases h
  have hle := size_peek_le hpeek
  simp only [size, ahead_of_peek hpeek, Option.getD_some, Option.getD_none, Option.toList_none,
    List.length_nil] at hle ⊢
  omega

/-- A token that was looked at and is then taken makes a stream smaller, even if it is not looked at
again. -/
@[grind →]
theorem size_next_lt_of_peek {token : Token} (h : s.peek = (.ok (some token), s'))
    (h' : s'.next = (.ok t, s'')) : s''.size < s.size := by
  have hle := size_peek_le h
  rw [next_of_ahead (ahead_of_peek h)] at h'
  cases h'
  have hlt := size_next_le (next_of_ahead (ahead_of_peek h))
  exact Nat.lt_of_lt_of_le hlt hle

/-- What is found out by looking is said of what looking finds. -/
theorem exists_peek_of_map {α : Type} {f : Option Token → α} {a : α}
    (h : s.peek.map (·.map f) id = (.ok a, s')) : ∃ t, s.peek = (.ok t, s') ∧ a = f t := by
  cases hpeek : s.peek with | mk result s₁ =>
  rw [hpeek] at h
  cases result with
  | error e => cases h
  | ok t =>
    cases h
    exact ⟨t, rfl, rfl⟩

theorem exists_peek_of_atEnd {b : Bool} (h : s.atEnd = (.ok b, s')) :
    ∃ t, s.peek = (.ok t, s') ∧ b = t.isNone :=
  exists_peek_of_map h

theorem exists_peek_of_check {kinds : List TokenKind} {b : Bool}
    (h : s.check kinds = (.ok b, s')) :
    ∃ t, s.peek = (.ok t, s') ∧ b = t.any fun t => kinds.contains t.kind :=
  exists_peek_of_map h

@[grind →]
theorem size_atEnd_le {b : Bool} (h : s.atEnd = (.ok b, s')) : s'.size ≤ s.size := by
  obtain ⟨t, hpeek, -⟩ := exists_peek_of_atEnd h
  exact size_peek_le hpeek

@[grind →]
theorem size_check_le {kinds : List TokenKind} {b : Bool} (h : s.check kinds = (.ok b, s')) :
    s'.size ≤ s.size := by
  obtain ⟨t, hpeek, -⟩ := exists_peek_of_check h
  exact size_peek_le hpeek

@[grind →]
theorem size_takeIf_le {kinds : List TokenKind} (h : s.takeIf kinds = (.ok t, s')) :
    s'.size ≤ s.size := by
  rw [takeIf] at h
  split at h
  next s₁ hcheck =>
    have hle := size_check_le hcheck
    have hnext := size_next_le h
    omega
  next s₁ hcheck =>
    cases h
    exact size_check_le hcheck
  next => cases h

@[grind →]
theorem size_expectNext_lt {expected : Option String} {token : Token}
    (h : s.expectNext expected = (.ok token, s')) : s'.size < s.size := by
  rw [expectNext] at h
  split at h
  next hnext =>
    cases h
    exact size_next_le hnext
  next => cases h
  next => cases h

@[grind →]
theorem size_expect_lt {kind : TokenKind} {expected : Option String} {token : Token}
    (h : s.expect kind expected = (.ok token, s')) : s'.size < s.size := by
  simp only [expect] at h
  split at h
  next hnext =>
    split at h <;> cases h
    exact size_expectNext_lt hnext
  next => cases h

@[grind →]
theorem size_expectIdentifier_lt {expected name : String}
    (h : s.expectIdentifier expected = (.ok name, s')) : s'.size < s.size := by
  rw [expectIdentifier] at h
  split at h
  next hexpect =>
    split at h <;> cases h
    exact size_expect_lt hexpect
  next => cases h

end Size

end Stream

end TinyCompiler
