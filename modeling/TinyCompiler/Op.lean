/-!
# Arithmetic operators

The four operators that expressions and instructions share.
-/

namespace TinyCompiler

/-- An arithmetic operator. -/
inductive Op where
  | add | sub | mul | div
  deriving DecidableEq, Repr

namespace Op

/-- The operator as it is written in a program. -/
def sign : Op → Char
  | .add => '+'
  | .sub => '-'
  | .mul => '*'
  | .div => '/'

/-- The operator's name. -/
def name : Op → String
  | .add => "ADD"
  | .sub => "SUB"
  | .mul => "MUL"
  | .div => "DIV"

/-- The operator's number, counted from one. -/
def number : Op → Nat
  | .add => 1
  | .sub => 2
  | .mul => 3
  | .div => 4

/-- All operators. -/
def all : List Op := [.add, .sub, .mul, .div]

/-- The operator of a name. -/
def ofName? (name : String) : Option Op := all.find? (·.name == name)

end Op

end TinyCompiler
