import TinyCompiler.Token.Piece

/-!
# Reading a text token by token

A cursor is a place in a named text together with the characters from there on. Reading skips gaps
and delivers the next token or the next fault; either way the cursor then stands right after the
characters that were delivered, so that reading can go on after a fault.
-/

namespace TinyCompiler

/-- A place in a named text, and the text from there on. -/
structure Cursor where
  file : String
  position : Position
  rest : List Char
  deriving DecidableEq, Repr

/-- What reading delivers. -/
inductive Reading where
  | token (t : Token)
  | fault (e : ScanError)
  deriving DecidableEq, Repr

namespace Cursor

/-- The start of a text. -/
def ofText (file source : String) : Cursor := ⟨file, .start, source.toList⟩

/-- The place where the cursor stands. -/
def location (c : Cursor) : Location := .ofPosition c.file c.position

/-- The cursor after a piece, with `rest` left to read. -/
def past (c : Cursor) (piece : Piece) (rest : List Char) : Cursor :=
  ⟨c.file, c.position.after piece.text, rest⟩

/-- Delivers the next token or fault, or nothing at the end of the text. -/
def next (c : Cursor) : Option Reading × Cursor :=
  match _h : c.rest with
  | [] => (none, c)
  | ch :: cs =>
    let after := c.past (Piece.split ch cs).1 (Piece.split ch cs).2
    match (Piece.split ch cs).1 with
    | .gap _ => after.next
    | .word _ lexeme => (some (.token ⟨lexeme, some c.location⟩), after)
    | .fault _ fault => (some (.fault ⟨fault, some c.location⟩), after)
termination_by c.rest.length
decreasing_by
  rw [_h]
  exact Piece.split_length ch cs

/-- Reading gives no characters back, and a token or a fault takes at least one. -/
theorem length_next_le {c d : Cursor} {r : Option Reading} (h : c.next = (r, d)) :
    d.rest.length + r.toList.length ≤ c.rest.length := by
  fun_induction next c with
  | case1 c hrest =>
    obtain ⟨rfl, rfl⟩ := Prod.mk.inj h
    exact Nat.le_refl _
  | case2 c ch cs hrest after text hpiece ih =>
    have hsplit := Piece.split_length ch cs
    have := ih h
    simp only [hrest, after, past] at this ⊢
    omega
  | case3 c ch cs hrest after text lexeme hpiece =>
    obtain ⟨rfl, rfl⟩ := Prod.mk.inj h
    rw [hrest]
    exact Piece.split_length ch cs
  | case4 c ch cs hrest after text fault hpiece =>
    obtain ⟨rfl, rfl⟩ := Prod.mk.inj h
    rw [hrest]
    exact Piece.split_length ch cs

theorem length_next_lt {c d : Cursor} {r : Reading} (h : c.next = (some r, d)) :
    d.rest.length < c.rest.length :=
  length_next_le h

/-- Reads on to the end of the text or to the first fault. -/
def drain (c : Cursor) : Except ScanError (List Token) × Cursor :=
  match _h : c.next with
  | (none, d) => (.ok [], d)
  | (some (.fault e), d) => (.error e, d)
  | (some (.token t), d) =>
    let (tokens, last) := d.drain
    (tokens.map (t :: ·), last)
termination_by c.rest.length
decreasing_by exact length_next_lt _h

end Cursor

/-- All tokens of a text, or its first fault. -/
def scan (file source : String) : Except ScanError (List Token) :=
  (Cursor.ofText file source).drain.1

/-! ### Passes

A pass is one reader's way over a text. It ends at the end of the text or at the first fault; what
is left is read by starting a new pass. -/

/-- A cursor, and whether the pass over it has ended. -/
structure Pass where
  cursor : Cursor
  ended : Bool
  deriving DecidableEq, Repr

namespace Pass

/-- A pass from the start of a text. -/
def ofText (file source : String) : Pass := ⟨.ofText file source, false⟩

/-- Delivers what comes next; a pass that has ended delivers nothing and moves nothing. -/
def next (p : Pass) : Option Reading × Pass :=
  if p.ended then (none, p)
  else
    match p.cursor.next with
    | (some (.token t), c) => (some (.token t), ⟨c, false⟩)
    | (r, c) => (r, ⟨c, true⟩)

/-- Starts a new pass where the cursor stands. -/
def restart (p : Pass) : Pass := ⟨p.cursor, false⟩

/-- Reads on by a pass of its own, which moves the cursor and leaves this pass as it is. -/
def drain (p : Pass) : Except ScanError (List Token) × Pass :=
  let (tokens, c) := p.cursor.drain
  (tokens, ⟨c, p.ended⟩)

end Pass

/-! ### Many passes

All passes over a text share its cursor: what one of them has taken is gone for the others. -/

/-- A cursor, and the passes that were started over it in turn: of each, whether it has ended. -/
structure Passes where
  cursor : Cursor
  ended : List Bool

namespace Passes

/-- What can be done with passes over a text. -/
inductive Step where
  /-- Asks a pass for what comes next. The passes are numbered from zero. -/
  | next (pass : Nat)
  /-- Starts a new pass. -/
  | start
  /-- Reads on by a pass of its own. -/
  | drain
  deriving DecidableEq

/-- What a step gives. -/
inductive Answer where
  | delivered (reading : Option Reading)
  | started
  | drained (tokens : Except ScanError (List Token))

/-- No pass has been started yet. -/
def ofText (file source : String) : Passes := ⟨.ofText file source, []⟩

/-- A pass over the cursor. One that was never started gives as little as one that has ended. -/
def pass (p : Passes) (i : Nat) : Pass := ⟨p.cursor, p.ended.getD i true⟩

/-- Takes a step. -/
def step (p : Passes) : Step → Answer × Passes
  | .next i =>
    let (reading, pass) := (p.pass i).next
    (.delivered reading, ⟨pass.cursor, p.ended.set i pass.ended⟩)
  | .start =>
    let pass := (p.pass p.ended.length).restart
    (.started, ⟨pass.cursor, p.ended ++ [pass.ended]⟩)
  | .drain =>
    let (tokens, pass) := (p.pass p.ended.length).drain
    (.drained tokens, ⟨pass.cursor, p.ended⟩)

/-- A step that was taken, what it gave, and the place that was reported after it. -/
structure Event where
  step : Step
  answer : Answer
  location : Location

/-- What happens when steps are taken one after the other. -/
def history (p : Passes) : List Step → List Event
  | [] => []
  | s :: steps => ⟨s, (p.step s).1, (p.step s).2.cursor.location⟩ :: (p.step s).2.history steps

end Passes

end TinyCompiler
