import TinyCompiler.Location
import TinyCompiler.Number.Binary64
import TinyCompiler.Op

/-!
# Trees of programs

A program, its functions, statements and expressions are nodes of one tree. Any node may stand in
any place of the tree, and a place may be left empty, also the place of an operator or of a whole
row of parts; what reads programs builds only sensible trees, and what consumes trees says where one
is not sensible.
-/

namespace TinyCompiler

/-- What a node is that should have a row of parts and has none. -/
inductive RowOwner where
  | program
  | function (name : String)
  | call (name : String)
  deriving DecidableEq, Repr

/-- A node of a program's tree, with the place where it begins if that is known. -/
inductive Node where
  /-- An empty place. -/
  | missing
  /-- Functions in order. -/
  | program (functions : List Node) (location : Option Location)
  /-- A function and the statements of its body. -/
  | function (name : String) (body : List Node) (location : Option Location)
  /-- A statement of no particular sort. -/
  | bareStatement (location : Option Location)
  /-- An expression whose value is dropped. -/
  | evaluate (expression : Node) (location : Option Location)
  /-- A variable and the expression whose value it gets. -/
  | assign (name : String) (expression : Node) (location : Option Location)
  /-- The end of a function, with or without a value. -/
  | giveBack (value : Node) (location : Option Location)
  /-- A condition, the expression for the case that it is not zero, and perhaps one for the case
  that it is. -/
  | conditional (condition thenBranch elseBranch : Node) (location : Option Location)
  /-- An expression of no particular sort. -/
  | bareExpression (location : Option Location)
  /-- A number. -/
  | constant (value : Binary64) (location : Option Location)
  /-- An operator between two operands. -/
  | binary (op : Option Op) (left right : Node) (location : Option Location)
  /-- An operator before its operand. -/
  | unary (op : Option Op) (operand : Node) (location : Option Location)
  /-- A function and the arguments it is called with. -/
  | call (name : String) (arguments : List Node) (location : Option Location)
  /-- A variable. -/
  | symbol (name : String) (location : Option Location)
  /-- A program, a function or a call in which the place of the row of parts is empty. -/
  | rowless (owner : RowOwner) (location : Option Location)

/-- What sort of node a node is. -/
inductive NodeKind where
  | missing | program | function | bareStatement | evaluate | assign | giveBack | conditional
  | bareExpression | constant | binary | unary | call | symbol
  deriving DecidableEq, Repr

namespace NodeKind

/-- The name of a kind. -/
def name : NodeKind → String
  | .missing => "NoneType"
  | .program => "Program"
  | .function => "FuncDecl"
  | .bareStatement => "Stmt"
  | .evaluate => "ExprStmt"
  | .assign => "Assignment"
  | .giveBack => "Return"
  | .conditional => "Conditional"
  | .bareExpression => "Expr"
  | .constant => "Constant"
  | .binary => "Binary"
  | .unary => "Unary"
  | .call => "Call"
  | .symbol => "Symbol"

end NodeKind

namespace RowOwner

/-- The kind of a node without its row. -/
def kind : RowOwner → NodeKind
  | .program => .program
  | .function _ => .function
  | .call _ => .call

/-- The name that a node without its row carries. -/
def name? : RowOwner → Option String
  | .program => none
  | .function name | .call name => some name

end RowOwner

namespace Node

/-- The kind of a node. -/
def kind : Node → NodeKind
  | .missing => .missing
  | .program .. => .program
  | .function .. => .function
  | .bareStatement _ => .bareStatement
  | .evaluate .. => .evaluate
  | .assign .. => .assign
  | .giveBack .. => .giveBack
  | .conditional .. => .conditional
  | .bareExpression _ => .bareExpression
  | .constant .. => .constant
  | .binary .. => .binary
  | .unary .. => .unary
  | .call .. => .call
  | .symbol .. => .symbol
  | .rowless owner _ => owner.kind

/-- The place where a node begins. -/
def location : Node → Option Location
  | .missing => none
  | .program _ l | .function _ _ l | .bareStatement l | .evaluate _ l | .assign _ _ l
  | .giveBack _ l | .conditional _ _ _ l | .bareExpression l | .constant _ l | .binary _ _ _ l
  | .unary _ _ l | .call _ _ l | .symbol _ l | .rowless _ l => l

/-- The name a node carries, for the kinds that carry one. -/
def name? : Node → Option String
  | .function name _ _ | .assign name _ _ | .call name _ _ | .symbol name _ => some name
  | .rowless owner _ => owner.name?
  | _ => none

/-- Whether a place of the tree is empty. -/
def isMissing : Node → Bool
  | .missing => true
  | _ => false

/-! ### Equality up to locations -/

mutual

/-- Whether two trees differ in locations at most; constants are compared as numbers. -/
def same : Node → Node → Bool
  | .missing, .missing => true
  | .program fs _, .program gs _ => sameAll fs gs
  | .function n body _, .function m body' _ => n == m && sameAll body body'
  | .bareStatement _, .bareStatement _ => true
  | .evaluate e _, .evaluate f _ => e.same f
  | .assign n e _, .assign m f _ => n == m && e.same f
  | .giveBack v _, .giveBack w _ => v.same w
  | .conditional c t e _, .conditional c' t' e' _ => c.same c' && t.same t' && e.same e'
  | .bareExpression _, .bareExpression _ => true
  | .constant v _, .constant w _ => v.same w
  | .binary o l r _, .binary p l' r' _ => o == p && l.same l' && r.same r'
  | .unary o x _, .unary p y _ => o == p && x.same y
  | .call n as _, .call m bs _ => n == m && sameAll as bs
  | .symbol n _, .symbol m _ => n == m
  | .rowless o _, .rowless p _ => o == p
  | _, _ => false
termination_by structural n => n

/-- Whether two rows of trees differ in locations at most. -/
def sameAll : List Node → List Node → Bool
  | [], [] => true
  | n :: ns, m :: ms => n.same m && sameAll ns ms
  | _, _ => false
termination_by structural ns => ns

end

end Node

/-! ### Programs -/

/-- A function of a program. -/
structure Function where
  name : String
  body : List Node
  location : Option Location

/-- A program: its functions in order. -/
structure Program where
  functions : List Function

/-- A function as a node. -/
def Function.toNode (f : Function) : Node := .function f.name f.body f.location

/-- A program as a tree. -/
def Program.toNode (p : Program) : Node := .program (p.functions.map Function.toNode) none

end TinyCompiler
