import TinyCompiler.Failure
import TinyCompiler.Number.Shown

/-!
# Outlines of trees

A tree is shown as an outline: one line for a program, a function and a statement each, indented by
depth, and expressions in one line with all their parentheses. A tree in which something is missing
that its outline would have to show has none.
-/

namespace TinyCompiler.Node

/-! ### Lines -/

/-- The sign of an operator, and nothing if there is no operator. -/
def signText : Option Op → String
  | some op => op.sign.toString
  | none => ""

mutual

/-- An expression with all its parentheses; what is no expression is shown by its kind. -/
def text : Node → String
  | .constant value _ => value.brief
  | .symbol name _ => name
  | .binary op left right _ => "(" ++ left.text ++ " " ++ signText op ++ " " ++ right.text ++ ")"
  | .unary op operand _ => "(" ++ signText op ++ operand.text ++ ")"
  | .call name arguments _ => name ++ "(" ++ ", ".intercalate (texts arguments) ++ ")"
  | n => "<" ++ n.kind.name ++ ">"
termination_by structural n => n

/-- The texts of a row of expressions. -/
def texts : List Node → List String
  | [] => []
  | n :: ns => n.text :: texts ns
termination_by structural ns => ns

end

/-- A line of an outline, two spaces to a level. -/
def outlineLine (depth : Nat) (text : String) : String :=
  String.ofList (List.replicate (2 * depth) ' ') ++ text

mutual

/-- The lines of a tree's outline. A node that has no line of its own shows what is below it. -/
def outlineLines (depth : Nat) : Node → List String
  | .missing => []
  | .program functions _ => outlineLine depth "Program" :: outlineAll (depth + 1) functions
  | .function name body _ =>
    outlineLine depth ("Function: " ++ name ++ "()") :: outlineAll (depth + 1) body
  | .evaluate expression _ => [outlineLine depth ("Expr: " ++ expression.text)]
  | .assign name expression _ =>
    [outlineLine depth ("Let " ++ name ++ " = " ++ expression.text)]
  | .giveBack value _ =>
    [outlineLine depth (if value.isMissing then "Return" else "Return " ++ value.text)]
  | .conditional condition thenBranch elseBranch _ =>
    outlineLine depth ("If (" ++ condition.text ++ ")") ::
      outlineLine (depth + 1) ("Then: " ++ thenBranch.text) ::
      (if elseBranch.isMissing then []
        else [outlineLine (depth + 1) ("Else: " ++ elseBranch.text)])
  | .bareStatement _ | .bareExpression _ | .constant .. | .symbol .. | .rowless .. => []
  | .binary _ left right _ => left.outlineLines depth ++ right.outlineLines depth
  | .unary _ operand _ => operand.outlineLines depth
  | .call _ arguments _ => outlineAll depth arguments
termination_by structural n => n

/-- The lines of a row of trees. -/
def outlineAll (depth : Nat) : List Node → List String
  | [] => []
  | n :: ns => n.outlineLines depth ++ outlineAll depth ns
termination_by structural ns => ns

end

/-- The outline of a tree in which nothing is missing. -/
def outline (n : Node) : String := "\n".intercalate (n.outlineLines 0)

/-! ### What is missing

The lists of what is missing are in the order in which the outline is put together. -/

/-- What is missing where an operator should be. -/
def signFaults : Option Op → List TreeError
  | some _ => []
  | none => [.noOperator]

mutual

/-- What is missing to show an expression. -/
def textFaults : Node → List TreeError
  | .binary op left right _ => left.textFaults ++ signFaults op ++ right.textFaults
  | .unary op operand _ => signFaults op ++ operand.textFaults
  | .call _ arguments _ => textFaultsAll arguments
  | .rowless (.call _) _ => [.noRow]
  | _ => []
termination_by structural n => n

/-- What is missing to show a row of expressions. -/
def textFaultsAll : List Node → List TreeError
  | [] => []
  | n :: ns => n.textFaults ++ textFaultsAll ns
termination_by structural ns => ns

end

mutual

/-- What is missing to show a tree. The functions of a program and the statements of a function must
be there; the operands and arguments of an expression need not, unless they are shown. -/
def outlineFaults : Node → List TreeError
  | .missing => [.noNode]
  | .program functions _ => outlineFaultsAll functions
  | .function _ body _ => outlineFaultsAll body
  | .evaluate expression _ | .assign _ expression _ => expression.textFaults
  | .giveBack value _ => value.textFaults
  | .conditional condition thenBranch elseBranch _ =>
    condition.textFaults ++ thenBranch.textFaults ++ elseBranch.textFaults
  | .bareStatement _ | .bareExpression _ | .constant .. | .symbol .. => []
  | .binary _ left right _ =>
    (if left.isMissing then [] else left.outlineFaults) ++
      (if right.isMissing then [] else right.outlineFaults)
  | .unary _ operand _ => if operand.isMissing then [] else operand.outlineFaults
  | .call _ arguments _ => outlineFaultsPresent arguments
  | .rowless (.call _) _ => []
  | .rowless _ _ => [.noRow]
termination_by structural n => n

/-- What is missing to show a row of trees. -/
def outlineFaultsAll : List Node → List TreeError
  | [] => []
  | n :: ns => n.outlineFaults ++ outlineFaultsAll ns
termination_by structural ns => ns

/-- What is missing to show those trees of a row that are there. -/
def outlineFaultsPresent : List Node → List TreeError
  | [] => []
  | n :: ns => (if n.isMissing then [] else n.outlineFaults) ++ outlineFaultsPresent ns
termination_by structural ns => ns

end

/-- The outline of a tree, or what is missing first. -/
def checkedOutline (n : Node) : Except TreeError String :=
  match n.outlineFaults with
  | [] => .ok n.outline
  | e :: _ => .error e

end TinyCompiler.Node
