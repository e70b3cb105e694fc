import TinyCompiler.Failure
import TinyCompiler.Node

/-!
# Reading expressions

An expression is read one token at a time. What has been read is kept as the operand read last, if
there is one, and a stack of what is still unfinished: operators that wait for their right operand,
negations, opened parentheses and calls whose arguments are being read. An operator that binds its
left operand no tighter than the operators on top of the stack bind their right one closes those
first; any other token closes all operators down to the nearest parenthesis or call.
-/

namespace TinyCompiler

/-- Something unfinished around the place where reading stands. -/
inductive Pending where
  /-- A minus sign before its operand. -/
  | negation (location : Option Location)
  /-- An operator with its left operand. -/
  | operation (left : Node) (op : Op)
  /-- An opened parenthesis. -/
  | group
  /-- A call with the arguments before the one that is being read. -/
  | argument (name : String) (location : Option Location) (earlier : List Node)

/-- How far an expression has been read. The top of the stack comes first. -/
inductive Progress where
  /-- An operand must come next. -/
  | awaiting (stack : List Pending)
  /-- A name was read, which is a call if a parenthesis follows. -/
  | named (name : String) (location : Option Location) (stack : List Pending)
  /-- A name and an opening parenthesis were read. -/
  | opened (name : String) (location : Option Location) (stack : List Pending)
  /-- An operand was read. -/
  | reached (operand : Node) (stack : List Pending)

/-- What a token does to an expression that is being read. -/
inductive Advance where
  /-- The token belongs to the expression. -/
  | more (p : Progress)
  /-- The expression ended before the token. -/
  | done (expression : Node)

namespace Pending

/-- How tightly an unfinished operator binds the operand it waits for. -/
def power? : Pending → Option Int
  | .negation _ => some negationPower
  | .operation _ op => some op.rightPower
  | .group | .argument .. => none

/-- Gives an unfinished operator its operand. An operation begins where its left operand begins. -/
def close (operand : Node) : Pending → Node
  | .negation location => .unary (some .sub) operand location
  | .operation left op => .binary (some op) left operand left.location
  | .group | .argument .. => operand

end Pending

/-- Closes the operators on top of the stack that bind the operand tighter than `power`. -/
def closeAbove (power : Int) (operand : Node) : List Pending → Node × List Pending
  | [] => (operand, [])
  | p :: stack =>
    match p.power? with
    | some q => if power < q then closeAbove power (p.close operand) stack else (operand, p :: stack)
    | none => (operand, p :: stack)

/-- Closes all operators on top of the stack. -/
def closeOperators (operand : Node) : List Pending → Node × List Pending
  | [] => (operand, [])
  | p :: stack =>
    match p.power? with
    | some _ => closeOperators (p.close operand) stack
    | none => (operand, p :: stack)

namespace Progress

/-- Nothing has been read yet. -/
def start : Progress := .awaiting []

/-- Takes a token where an operand must come next. -/
def onAwaiting (stack : List Pending) (t : Token) : Except ParseError Progress :=
  match t.lexeme with
  | .number value => .ok (.reached (.constant value t.location) stack)
  | .identifier name => .ok (.named name t.location stack)
  | .mark .openParen => .ok (.awaiting (.group :: stack))
  | .mark .minus => .ok (.awaiting (.negation t.location :: stack))
  | _ => .error (.unexpectedToken t (some "expression"))

/-- Takes an operator after an operand: it goes on with the expression unless it binds less tightly
than `least` and nothing encloses it. -/
def onOperator (least : Int) (operand : Node) (stack : List Pending) (op : Op) : Advance :=
  match closeAbove op.leftPower operand stack with
  | (left, []) =>
    if op.leftPower < least then .done left else .more (.awaiting [.operation left op])
  | (left, p :: stack) => .more (.awaiting (.operation left op :: p :: stack))

/-- Takes any other token after an operand. -/
def onDelimiter (operand : Node) (stack : List Pending) (t : Token) : Except ParseError Advance :=
  match closeOperators operand stack with
  | (inner, .group :: stack) =>
    if t.isMark .closeParen then .ok (.more (.reached inner stack))
    else .error (.unexpectedToken t (some "')'"))
  | (last, .argument name location earlier :: stack) =>
    if t.isMark .closeParen then
      .ok (.more (.reached (.call name (earlier ++ [last]) location) stack))
    else if t.isMark .comma then
      .ok (.more (.awaiting (.argument name location (earlier ++ [last]) :: stack)))
    else .error (.unexpectedToken t (some "',' or ')'"))
  | (whole, _) => .ok (.done whole)

/-- The operator that a token is after an operand. -/
def operator? (t : Token) : Option Op :=
  match t.lexeme with
  | .mark m => m.op?
  | _ => none

/-- Takes a token after an operand. -/
def onReached (least : Int) (operand : Node) (stack : List Pending) (t : Token) :
    Except ParseError Advance :=
  match operator? t with
  | some op => .ok (onOperator least operand stack op)
  | none => onDelimiter operand stack t

/-- Takes a token. Operators that bind less tightly than `least` do not belong to the expression. -/
def step (least : Int) (p : Progress) (t : Token) : Except ParseError Advance :=
  match p with
  | .awaiting stack => .more <$> onAwaiting stack t
  | .named name location stack =>
    if t.isMark .openParen then .ok (.more (.opened name location stack))
    else onReached least (.symbol name location) stack t
  | .opened name location stack =>
    if t.isMark .closeParen then .ok (.more (.reached (.call name [] location) stack))
    else .more <$> onAwaiting (.argument name location [] :: stack) t
  | .reached operand stack => onReached least operand stack t

/-- The expression, if the tokens end after an operand. -/
def finishReached (operand : Node) (stack : List Pending) : Except ParseError Node :=
  match closeOperators operand stack with
  | (_, .group :: _) => .error (.unexpectedEnd (some "')'"))
  | (_, .argument .. :: _) => .error (.unexpectedEnd (some "',' or ')'"))
  | (whole, _) => .ok whole

/-- The expression, if the tokens end here. -/
def finish : Progress → Except ParseError Node
  | .awaiting _ | .opened .. => .error (.unexpectedEnd (some "expression"))
  | .named name location stack => finishReached (.symbol name location) stack
  | .reached operand stack => finishReached operand stack

/-- Reads on from some progress: the expression, and the tokens that follow it. -/
def read (least : Int) (p : Progress) : List Token → Except ParseError (Node × List Token)
  | [] => p.finish.map (·, [])
  | t :: ts =>
    match p.step least t with
    | .ok (.more p) => p.read least ts
    | .ok (.done expression) => .ok (expression, t :: ts)
    | .error e => .error e

end Progress

/-- Reads the expression at the start of some tokens, as far as its operators bind at least as
tightly as `least`, and gives the tokens that follow it. -/
def readExpression (least : Int) (tokens : List Token) : Except ParseError (Node × List Token) :=
  Progress.start.read least tokens

end TinyCompiler
