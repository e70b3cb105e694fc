import TinyCompiler.Failure

/-!
# Walks over trees

Two walks over a tree, both from the top and from left to right: the list of all nodes with their
depths, and the visit of the nodes of chosen kinds, which may pass over what is below them.
-/

namespace TinyCompiler.Node

mutual

/-- All nodes of a tree with their depths, every node before those below it. -/
def preorder (depth : Nat) : Node → List (Nat × Node)
  | .missing => []
  | n@(.program functions _) => (depth, n) :: preorderAll (depth + 1) functions
  | n@(.function _ body _) => (depth, n) :: preorderAll (depth + 1) body
  | n@(.bareStatement _) | n@(.bareExpression _) | n@(.constant ..) | n@(.symbol ..)
  | n@(.rowless ..) => [(depth, n)]
  | n@(.evaluate e _) | n@(.assign _ e _) | n@(.giveBack e _) | n@(.unary _ e _) =>
    (depth, n) :: e.preorder (depth + 1)
  | n@(.conditional c t e _) =>
    (depth, n) :: (c.preorder (depth + 1) ++ t.preorder (depth + 1) ++ e.preorder (depth + 1))
  | n@(.binary _ l r _) => (depth, n) :: (l.preorder (depth + 1) ++ r.preorder (depth + 1))
  | n@(.call _ arguments _) => (depth, n) :: preorderAll (depth + 1) arguments
termination_by structural n => n

/-- All nodes of a row of trees with their depths. -/
def preorderAll (depth : Nat) : List Node → List (Nat × Node)
  | [] => []
  | n :: ns => n.preorder depth ++ preorderAll depth ns
termination_by structural ns => ns

end

/-- The nodes right below a node, in order, empty places left out. -/
def children (n : Node) : List Node :=
  let places := match n with
    | .program ns _ | .function _ ns _ | .call _ ns _ => ns
    | .evaluate e _ | .assign _ e _ | .giveBack e _ | .unary _ e _ => [e]
    | .conditional c t e _ => [c, t, e]
    | .binary _ l r _ => [l, r]
    | _ => []
  places.filter (!·.isMissing)

theorem sizeOf_lt_of_mem_children {n c : Node} (h : c ∈ n.children) : sizeOf c < sizeOf n := by
  have hplaces := (List.mem_filter.mp h).1
  cases n <;> simp only [List.mem_cons, List.not_mem_nil, or_false] at hplaces
  case program ns _ | function _ ns _ | call _ ns _ =>
    have := List.sizeOf_lt_of_mem hplaces
    simp only [program.sizeOf_spec, function.sizeOf_spec, call.sizeOf_spec]
    omega
  case evaluate | assign | giveBack | unary =>
    subst hplaces
    simp only [evaluate.sizeOf_spec, assign.sizeOf_spec, giveBack.sizeOf_spec, unary.sizeOf_spec]
    omega
  case conditional =>
    rcases hplaces with rfl | rfl | rfl <;> simp only [conditional.sizeOf_spec] <;> omega
  case binary =>
    rcases hplaces with rfl | rfl <;> simp only [binary.sizeOf_spec] <;> omega

/-- Visits a tree and notes the nodes of the chosen kinds. What is below a noted node is visited
only if `descend` says so; what is below any other node is always visited. -/
def visit (chosen : NodeKind → Bool) (descend : Bool) (n : Node) : List Node :=
  if chosen n.kind then
    n :: if descend then n.children.attach.flatMap fun c => c.1.visit chosen descend else []
  else n.children.attach.flatMap fun c => c.1.visit chosen descend
termination_by sizeOf n
decreasing_by all_goals exact sizeOf_lt_of_mem_children c.2

/-- Visits a tree, which must not be missing altogether if anything below it is to be visited. -/
def checkedVisit (chosen : NodeKind → Bool) (descend : Bool) (n : Node) :
    Except TreeError (List Node) :=
  if n.isMissing && (descend || !chosen .missing) then .error .noNode
  else .ok (n.visit chosen descend)

end TinyCompiler.Node
