import TinyCompiler.Node.Expression
import TinyCompiler.Token.Cursor

/-!
# Reading programs

A program is read one token at a time, like an expression. A function is any token, a name, empty
parentheses and a body in braces; a statement is one of `return`, `let` and `if` and ends with a
semicolon. The brace that closes the last body may be missing. Because a token is asked for only
when all tokens before it have been taken, tokens of a list and tokens that are read from a text on
demand give the same program or the same first complaint.
-/

namespace TinyCompiler

/-- How far a statement has been read. -/
inductive PartialStatement where
  /-- After `return`. -/
  | giveBack (location : Option Location)
  /-- In the value of `return`. -/
  | giveBackValue (location : Option Location) (value : Progress)
  /-- After `let`. -/
  | assign (location : Option Location)
  /-- After `let` and a name. -/
  | assignName (location : Option Location) (name : String)
  /-- In the value of `let`. -/
  | assignValue (location : Option Location) (name : String) (value : Progress)
  /-- After `if`. -/
  | conditional (location : Option Location)
  /-- In the condition. -/
  | testing (location : Option Location) (condition : Progress)
  /-- In the expression after the condition. -/
  | whenTrue (location : Option Location) (condition : Node) (branch : Progress)
  /-- In the expression after `else`. -/
  | whenFalse (location : Option Location) (condition thenBranch : Node) (branch : Progress)

/-- How far a function has been read. -/
inductive Stage where
  /-- Between functions. -/
  | outside
  /-- After the token that announces a function. -/
  | announced (location : Option Location)
  /-- After the name. -/
  | named (location : Option Location) (name : String)
  /-- After the opening parenthesis. -/
  | opened (location : Option Location) (name : String)
  /-- After the closing parenthesis. -/
  | closed (location : Option Location) (name : String)
  /-- In the body, between statements. -/
  | body (location : Option Location) (name : String) (statements : List Node)
  /-- In the body, inside a statement. -/
  | inside (location : Option Location) (name : String) (statements : List Node)
      (statement : PartialStatement)

/-- The functions read so far, and how far the next one has been read. -/
structure Reader where
  functions : List Function
  stage : Stage

namespace PartialStatement

/-- What a token does to a statement that is being read. -/
inductive Advance where
  /-- The statement goes on. -/
  | more (s : PartialStatement)
  /-- The statement is complete. -/
  | done (statement : Node)

/-- A complete statement wants a semicolon. -/
def endStatement (statement : Node) (t : Token) : Except ParseError Advance :=
  if t.isMark .semicolon then .ok (.done statement)
  else .error (.unexpectedToken t (some "';' after statement"))

/-- Takes a token inside an expression of a statement: `inside` puts the expression back where it
is being read, and `after` takes the token if the expression ended before it. -/
def inExpression (p : Progress) (t : Token) (inside : Progress → PartialStatement)
    (after : Node → Except ParseError Advance) : Except ParseError Advance :=
  match p.step 0 t with
  | .ok (.more p) => .ok (.more (inside p))
  | .ok (.done expression) => after expression
  | .error e => .error e

/-- Takes a token. -/
def step (s : PartialStatement) (t : Token) : Except ParseError Advance :=
  match s with
  | .giveBack location =>
    if t.kind.startsExpression then
      inExpression .start t (.giveBackValue location) fun value =>
        endStatement (.giveBack value location) t
    else endStatement (.giveBack .missing location) t
  | .giveBackValue location value =>
    inExpression value t (.giveBackValue location) fun value =>
      endStatement (.giveBack value location) t
  | .assign location =>
    match t.lexeme with
    | .identifier name => .ok (.more (.assignName location name))
    | _ => .error (.unexpectedToken t (some "variable name"))
  | .assignName location name =>
    if t.isMark .equals then .ok (.more (.assignValue location name .start))
    else .error (.unexpectedToken t (some "'='"))
  | .assignValue location name value =>
    inExpression value t (.assignValue location name) fun value =>
      endStatement (.assign name value location) t
  | .conditional location =>
    if t.isMark .openParen then .ok (.more (.testing location .start))
    else .error (.unexpectedToken t (some "'(' after 'if'"))
  | .testing location condition =>
    inExpression condition t (.testing location) fun condition =>
      if t.isMark .closeParen then .ok (.more (.whenTrue location condition .start))
      else .error (.unexpectedToken t (some "')'"))
  | .whenTrue location condition branch =>
    inExpression branch t (.whenTrue location condition) fun branch =>
      if t.isKeyword .kwElse then .ok (.more (.whenFalse location condition branch .start))
      else endStatement (.conditional condition branch .missing location) t
  | .whenFalse location condition thenBranch branch =>
    inExpression branch t (.whenFalse location condition thenBranch) fun branch =>
      endStatement (.conditional condition thenBranch branch location) t

/-- What is missing if the tokens end inside a statement. -/
def lack : PartialStatement → ParseError
  | .giveBack _ => .unexpectedEnd (some "';' after statement")
  | .assign _ => .unexpectedEnd (some "variable name")
  | .assignName .. => .unexpectedEnd (some "'='")
  | .conditional _ => .unexpectedEnd (some "'(' after 'if'")
  | .testing _ p => lackAfter p "')'"
  | .giveBackValue _ p | .assignValue _ _ p | .whenTrue _ _ p | .whenFalse _ _ _ p =>
    lackAfter p "';' after statement"
where
  /-- What an expression lacks, or else what must follow it. -/
  lackAfter (p : Progress) (expected : String) : ParseError :=
    match p.finish with
    | .ok _ => .unexpectedEnd (some expected)
    | .error e => e

end PartialStatement

namespace Stage

/-- The statement that a keyword begins. -/
def beginStatement? (t : Token) : Option PartialStatement :=
  match t.lexeme with
  | .keyword .kwReturn => some (.giveBack t.location)
  | .keyword .kwLet => some (.assign t.location)
  | .keyword .kwIf => some (.conditional t.location)
  | _ => none

end Stage

namespace Reader

/-- Nothing has been read yet. -/
def start : Reader := ⟨[], .outside⟩

/-- Takes a token that must be the given mark. -/
def expectMark (t : Token) (m : Mark) (expected : String) (next : Reader) :
    Except ParseError Reader :=
  if t.isMark m then .ok next else .error (.unexpectedToken t (some expected))

/-- Takes a token. -/
def step (r : Reader) (t : Token) : Except ParseError Reader :=
  match r.stage with
  | .outside => .ok ⟨r.functions, .announced t.location⟩
  | .announced location =>
    match t.lexeme with
    | .identifier name => .ok ⟨r.functions, .named location name⟩
    | _ => .error (.unexpectedToken t (some "function name"))
  | .named location name => expectMark t .openParen "'('" ⟨r.functions, .opened location name⟩
  | .opened location name =>
    expectMark t .closeParen "')' (functions take no parameters)"
      ⟨r.functions, .closed location name⟩
  | .closed location name => expectMark t .openBrace "'\x7b'" ⟨r.functions, .body location name []⟩
  | .body location name statements =>
    if t.isMark .closeBrace then .ok ⟨r.functions ++ [⟨name, statements, location⟩], .outside⟩
    else
      match Stage.beginStatement? t with
      | some s => .ok ⟨r.functions, .inside location name statements s⟩
      | none => .error (.unexpectedToken t (some "'return', 'let', 'if' or '\x7d'"))
  | .inside location name statements s =>
    match s.step t with
    | .ok (.more s) => .ok ⟨r.functions, .inside location name statements s⟩
    | .ok (.done statement) => .ok ⟨r.functions, .body location name (statements ++ [statement])⟩
    | .error e => .error e

/-- The program, if the tokens end here. The last body need not be closed. -/
def finish (r : Reader) : Except ParseError Program :=
  match r.stage with
  | .outside => .ok ⟨r.functions⟩
  | .announced _ => .error (.unexpectedEnd (some "function name"))
  | .named .. => .error (.unexpectedEnd (some "'('"))
  | .opened .. => .error (.unexpectedEnd (some "')' (functions take no parameters)"))
  | .closed .. => .error (.unexpectedEnd (some "'\x7b'"))
  | .body location name statements => .ok ⟨r.functions ++ [⟨name, statements, location⟩]⟩
  | .inside _ _ _ s => .error s.lack

/-- Reads the tokens of a list from some point on. -/
def readTokens (r : Reader) : List Token → Except ParseError Program
  | [] => r.finish
  | t :: ts =>
    match r.step t with
    | .ok r => r.readTokens ts
    | .error e => .error e

/-- Reads the tokens of a text from some point on, each when it is needed. -/
def readText (r : Reader) (c : Cursor) : Except Failure Program :=
  match _h : c.next with
  | (none, _) => r.finish.mapError .parse
  | (some (.fault e), _) => .error (.scan e)
  | (some (.token t), d) =>
    match r.step t with
    | .ok r => r.readText d
    | .error e => .error (.parse e)
termination_by c.rest.length
decreasing_by exact Cursor.length_next_lt _h

end Reader

/-- The program of a list of tokens. -/
def parse (tokens : List Token) : Except ParseError Program := Reader.start.readTokens tokens

/-- The program of a text, tokens being read from it as they are needed, so that a complaint about a
token comes before a fault further on. -/
def parseOnDemand (file source : String) : Except Failure Program :=
  Reader.start.readText (.ofText file source)

/-- The program of a text, which is read into tokens first, so that a fault anywhere comes before a
complaint about a token. -/
def parseText (file source : String) : Except Failure Program :=
  match scan file source with
  | .error e => .error (.scan e)
  | .ok tokens => (parse tokens).mapError .parse

end TinyCompiler
