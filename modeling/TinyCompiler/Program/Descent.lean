import TinyCompiler.Program.Reader
import TinyCompiler.Token.Stream

/-!
# Reading programs by descent

The parts of a program contain each other, and here the functions that read them call each other in
the same way. They take tokens from a stream and look at most one token ahead. Every call comes with
a smaller stream, or with the same one and a part that can only begin with smaller parts, so that
reading comes to an end.

A reader that takes one token after the other does the same and keeps for itself what the calls keep
here: see `Progress` and `Reader`.
-/

namespace TinyCompiler.Stream

/-! ### Steps -/

/-- The result of a use of a stream that does not fail, and the stream after it. -/
structure Used {α : Type} (u : Use α) (s : Stream) where
  value : α
  rest : Stream
  use_eq : u s = (.ok value, rest)

/-- Uses a stream, and remembers what was used and how. -/
def use {α : Type} (s : Stream) (u : Use α) : Except Failure (Used u s) :=
  match h : (u s).1 with
  | .ok value => .ok ⟨value, (u s).2, Prod.ext h rfl⟩
  | .error e => .error e

/-- What was read from a stream, and what is left of the stream: at least `n` tokens were taken. -/
structure Taken (n : Nat) (α : Type) (s : Stream) where
  value : α
  rest : Stream
  size_le : rest.size + n ≤ s.size := by grind

/-- Takes all tokens that are left, after the earlier ones. -/
def takeAll (earlier : List Token) (s : Stream) : Except Failure (List Token) := do
  let ⟨next, s₁, h⟩ ← s.use Stream.next
  match next, h with
  | none, _ => return earlier
  | some t, _ => takeAll (earlier ++ [t]) s₁
termination_by s.size
decreasing_by grind

/-! ### Expressions -/

mutual

/-- Reads an expression as far as its operators bind at least as tightly as `least`. -/
def readExpression (least : Int) (s : Stream) : Except Failure (Taken 0 Node s) := do
  let ⟨left, s₁, _⟩ ← readOperand s
  let ⟨whole, s₂, _⟩ ← readOperators least left s₁
  return .mk whole s₂
termination_by (s.size, 2)
decreasing_by all_goals grind

/-- Reads on after an operand: operators that bind at least as tightly as `least`, each with its
right operand. -/
def readOperators (least : Int) (left : Node) (s : Stream) : Except Failure (Taken 0 Node s) := do
  let ⟨next, s₁, h⟩ ← s.use peek
  match next, h with
  | none, _ => return .mk left s₁
  | some t, _ =>
    match Progress.operator? t with
    | none => return .mk left s₁
    | some op =>
      if op.leftPower < least then return .mk left s₁
      else
        let ⟨_, s₂, _⟩ ← s₁.use Stream.next
        let ⟨right, s₃, _⟩ ← readExpression op.rightPower s₂
        let left := .binary (some op) left right left.location
        let ⟨whole, s₄, _⟩ ← readOperators least left s₃
        return .mk whole s₄
termination_by (s.size, 1)
decreasing_by all_goals grind

/-- Reads a number, a name, a call, an expression in parentheses or a negation. -/
def readOperand (s : Stream) : Except Failure (Taken 0 Node s) := do
  let ⟨t, s₁, _⟩ ← s.use (expectNext (some "expression"))
  match t.lexeme with
  | .number value => return .mk (.constant value t.location) s₁
  | .identifier name =>
    let ⟨paren, s₂, _⟩ ← s₁.use (takeIf [.mark .openParen])
    match paren with
    | some _ =>
      let ⟨call, s₃, _⟩ ← readCall name t.location s₂
      return .mk call s₃
    | none => return .mk (.symbol name t.location) s₂
  | _ =>
    if t.isMark .openParen then
      let ⟨inner, s₂, _⟩ ← readExpression 0 s₁
      let ⟨_, s₃, _⟩ ← s₂.use (expect (.mark .closeParen) (some "')'"))
      return .mk inner s₃
    else if t.isMark .minus then
      let ⟨operand, s₂, _⟩ ← readExpression negationPower s₁
      return .mk (.unary (some .sub) operand t.location) s₂
    else throw (.parse (.unexpectedToken t (some "expression")))
termination_by (s.size, 0)
decreasing_by all_goals grind

/-- Reads on after the name and the opening parenthesis of a call. -/
def readCall (name : String) (location : Option Location) (s : Stream) :
    Except Failure (Taken 0 Node s) := do
  let ⟨paren, s₁, _⟩ ← s.use (takeIf [.mark .closeParen])
  match paren with
  | some _ => return .mk (.call name [] location) s₁
  | none =>
    let ⟨call, s₂, _⟩ ← readArguments name location [] s₁
    return .mk call s₂
termination_by (s.size, 4)
decreasing_by all_goals grind

/-- Reads the arguments of a call after the earlier ones. -/
def readArguments (name : String) (location : Option Location) (earlier : List Node) (s : Stream) :
    Except Failure (Taken 0 Node s) := do
  let ⟨last, s₁, _⟩ ← readExpression 0 s
  let ⟨t, s₂, _⟩ ← s₁.use (expectNext (some "',' or ')'"))
  if t.isMark .closeParen then return .mk (.call name (earlier ++ [last]) location) s₂
  else if t.isMark .comma then
    let ⟨call, s₃, _⟩ ← readArguments name location (earlier ++ [last]) s₂
    return .mk call s₃
  else throw (.parse (.unexpectedToken t (some "',' or ')'")))
termination_by (s.size, 3)
decreasing_by all_goals grind

end

/-- Reads an expression, and takes all tokens that follow it. -/
def readLeading (least : Int) (s : Stream) : Except Failure (Node × List Token) := do
  let ⟨expression, s₁, _⟩ ← s.readExpression least
  let later ← s₁.takeAll []
  return (expression, later)

/-! ### Statements -/

/-- Reads on after `return`. The value is optional. -/
def readGiveBack (location : Option Location) (s : Stream) : Except Failure (Taken 0 Node s) := do
  let ⟨valued, s₁, _⟩ ← s.use (check (TokenKind.all.filter (·.startsExpression)))
  if valued then
    let ⟨value, s₂, _⟩ ← s₁.readExpression 0
    return .mk (.giveBack value location) s₂
  else return .mk (.giveBack .missing location) s₁

/-- Reads on after `let`. -/
def readAssign (location : Option Location) (s : Stream) : Except Failure (Taken 0 Node s) := do
  let ⟨name, s₁, _⟩ ← s.use (expectIdentifier "variable name")
  let ⟨_, s₂, _⟩ ← s₁.use (expect (.mark .equals) (some "'='"))
  let ⟨value, s₃, _⟩ ← s₂.readExpression 0
  return .mk (.assign name value location) s₃

/-- Reads on after `if`. -/
def readConditional (location : Option Location) (s : Stream) : Except Failure (Taken 0 Node s) := do
  let ⟨_, s₁, _⟩ ← s.use (expect (.mark .openParen) (some "'(' after 'if'"))
  let ⟨condition, s₂, _⟩ ← s₁.readExpression 0
  let ⟨_, s₃, _⟩ ← s₂.use (expect (.mark .closeParen) (some "')'"))
  let ⟨thenBranch, s₄, _⟩ ← s₃.readExpression 0
  let ⟨alternative, s₅, _⟩ ← s₄.use (takeIf [.keyword .kwElse])
  match alternative with
  | some _ =>
    let ⟨elseBranch, s₆, _⟩ ← s₅.readExpression 0
    return .mk (.conditional condition thenBranch elseBranch location) s₆
  | none => return .mk (.conditional condition thenBranch .missing location) s₅

/-- Reads on after the token that begins a statement, up to the semicolon. -/
def readStatement (t : Token) (s : Stream) : Except Failure (Taken 0 Node s) :=
  match t.lexeme with
  | .keyword .kwReturn => s.readGiveBack t.location
  | .keyword .kwLet => s.readAssign t.location
  | .keyword .kwIf => s.readConditional t.location
  | _ => throw (.parse (.unexpectedToken t (some "'return', 'let', 'if' or '\x7d'")))

/-- Reads the statements of a body after the earlier ones. The brace that closes the body is taken;
if the tokens end instead, so does the body. -/
def readStatements (earlier : List Node) (s : Stream) : Except Failure (Taken 0 (List Node) s) := do
  let ⟨first, s₁, _⟩ ← s.use Stream.next
  match first with
  | none => return .mk earlier s₁
  | some t =>
    if t.isMark .closeBrace then return .mk earlier s₁
    else
      let ⟨statement, s₂, _⟩ ← s₁.readStatement t
      let ⟨_, s₃, _⟩ ← s₂.use (expect (.mark .semicolon) (some "';' after statement"))
      let ⟨statements, s₄, _⟩ ← readStatements (earlier ++ [statement]) s₃
      return .mk statements s₄
termination_by s.size
decreasing_by grind

/-! ### Functions -/

/-- Reads a function. Whatever token stands first is passed over. -/
def readFunction (s : Stream) : Except Failure (Taken 1 Function s) := do
  let ⟨header, s₁, _⟩ ← s.use Stream.next
  let ⟨name, s₂, _⟩ ← s₁.use (expectIdentifier "function name")
  let ⟨_, s₃, _⟩ ← s₂.use (expect (.mark .openParen) (some "'('"))
  let ⟨_, s₄, _⟩ ←
    s₃.use (expect (.mark .closeParen) (some "')' (functions take no parameters)"))
  let ⟨_, s₅, _⟩ ← s₄.use (expect (.mark .openBrace) (some "'\x7b'"))
  let ⟨body, s₆, _⟩ ← s₅.readStatements []
  return .mk ⟨name, body, header.bind (·.location)⟩ s₆

/-- Reads functions after the earlier ones until the tokens end. -/
def readFunctions (earlier : List Function) (s : Stream) : Except Failure Program := do
  let ⟨ended, s₁, _⟩ ← s.use atEnd
  if ended then return ⟨earlier⟩
  else
    let ⟨f, s₂, _⟩ ← s₁.readFunction
    readFunctions (earlier ++ [f]) s₂
termination_by s.size
decreasing_by grind

/-- Reads a program from all tokens of a stream. -/
def readProgram (s : Stream) : Except Failure Program := s.readFunctions []

end TinyCompiler.Stream
