import Mathlib.Tactic.Lemma
import TinyCompiler.Node.Visit

/-!
# All nodes of a tree

The nodes of a tree in the order of a walk from the top and from left to right, without their
depths. What is required of a program everywhere is required of all its nodes.
-/

namespace TinyCompiler

namespace Node

mutual

theorem map_snd_preorder : (n : Node) → (d d' : Nat) →
    (n.preorder d).map (·.2) = (n.preorder d').map (·.2)
  | .missing, d, d' | .bareStatement _, d, d' | .bareExpression _, d, d' | .constant _ _, d, d'
  | .symbol _ _, d, d' | .rowless _ _, d, d' => by simp [preorder]
  | .program ns _, d, d' | .function _ ns _, d, d' | .call _ ns _, d, d' => by
    simp [preorder, map_snd_preorderAll ns (d + 1) (d' + 1)]
  | .evaluate e _, d, d' | .assign _ e _, d, d' | .giveBack e _, d, d' | .unary _ e _, d, d' => by
    simp [preorder, map_snd_preorder e (d + 1) (d' + 1)]
  | .conditional c t e _, d, d' => by
    simp [preorder, map_snd_preorder c (d + 1) (d' + 1), map_snd_preorder t (d + 1) (d' + 1),
      map_snd_preorder e (d + 1) (d' + 1)]
  | .binary _ l r _, d, d' => by
    simp [preorder, map_snd_preorder l (d + 1) (d' + 1), map_snd_preorder r (d + 1) (d' + 1)]

theorem map_snd_preorderAll : (ns : List Node) → (d d' : Nat) →
    (preorderAll d ns).map (·.2) = (preorderAll d' ns).map (·.2)
  | [], d, d' => by simp [preorderAll]
  | n :: ns, d, d' => by
    simp [preorderAll, map_snd_preorder n d d', map_snd_preorderAll ns d d']

end

/-- All nodes of a tree, every node before those below it. -/
def nodes (n : Node) : List Node := (n.preorder 0).map (·.2)

lemma map_snd_preorderAll_eq (ns : List Node) (d : Nat) :
    (preorderAll d ns).map (·.2) = ns.flatMap nodes := by
  induction ns with
  | nil => simp [preorderAll]
  | cons n ns ih =>
    rw [preorderAll, List.map_append, ih, List.flatMap_cons, nodes, map_snd_preorder n d 0]

@[simp] lemma nodes_missing : nodes .missing = [] := by simp [nodes, preorder]

@[simp] lemma nodes_constant (v : Binary64) (l : Option Location) :
    nodes (.constant v l) = [.constant v l] := by simp [nodes, preorder]

@[simp] lemma nodes_symbol (x : String) (l : Option Location) :
    nodes (.symbol x l) = [.symbol x l] := by simp [nodes, preorder]

@[simp] lemma nodes_binary (op : Option Op) (left right : Node) (l : Option Location) :
    nodes (.binary op left right l) = .binary op left right l :: (left.nodes ++ right.nodes) := by
  simp [nodes, preorder, map_snd_preorder left 1 0, map_snd_preorder right 1 0]

@[simp] lemma nodes_unary (op : Option Op) (operand : Node) (l : Option Location) :
    nodes (.unary op operand l) = .unary op operand l :: operand.nodes := by
  simp [nodes, preorder, map_snd_preorder operand 1 0]

@[simp] lemma nodes_call (name : String) (es : List Node) (l : Option Location) :
    nodes (.call name es l) = .call name es l :: es.flatMap nodes := by
  rw [nodes, preorder, List.map_cons, map_snd_preorderAll_eq]

@[simp] lemma nodes_evaluate (e : Node) (l : Option Location) :
    nodes (.evaluate e l) = .evaluate e l :: e.nodes := by
  simp [nodes, preorder, map_snd_preorder e 1 0]

@[simp] lemma nodes_assign (x : String) (e : Node) (l : Option Location) :
    nodes (.assign x e l) = .assign x e l :: e.nodes := by
  simp [nodes, preorder, map_snd_preorder e 1 0]

@[simp] lemma nodes_giveBack (e : Node) (l : Option Location) :
    nodes (.giveBack e l) = .giveBack e l :: e.nodes := by
  simp [nodes, preorder, map_snd_preorder e 1 0]

@[simp] lemma nodes_conditional (c t e : Node) (l : Option Location) :
    nodes (.conditional c t e l) = .conditional c t e l :: (c.nodes ++ t.nodes ++ e.nodes) := by
  simp [nodes, preorder, map_snd_preorder c 1 0, map_snd_preorder t 1 0, map_snd_preorder e 1 0]

@[simp] lemma nodes_function (name : String) (body : List Node) (l : Option Location) :
    nodes (.function name body l) = .function name body l :: body.flatMap nodes := by
  rw [nodes, preorder, List.map_cons, map_snd_preorderAll_eq]

@[simp] lemma nodes_program (ns : List Node) (l : Option Location) :
    nodes (.program ns l) = .program ns l :: ns.flatMap nodes := by
  rw [nodes, preorder, List.map_cons, map_snd_preorderAll_eq]

end Node

/-- All nodes of a program. -/
def Program.nodes (p : Program) : List Node := p.toNode.nodes

/-- The nodes of a function's body are nodes of the program. -/
lemma Program.nodes_body_subset {p : Program} {f : Function} (hf : f ∈ p.functions) :
    f.body.flatMap Node.nodes ⊆ p.nodes := by
  intro n hn
  rw [Program.nodes, Program.toNode, Node.nodes_program]
  refine List.mem_cons_of_mem _ (List.mem_flatMap.mpr ⟨f.toNode, ?_, ?_⟩)
  · exact List.mem_map_of_mem hf
  · rw [Function.toNode, Node.nodes_function]
    exact List.mem_cons_of_mem _ hn

end TinyCompiler
