import Mathlib.Tactic.Lemma
import TinyCompiler.Program.Reader

/-!
# The grammar of programs

Which rows of words are programs, and which tree each of them stands for. Expressions have four
levels: sums, products, negations and atoms. Sums and products group to the left, a negation binds
tighter than both, and parentheses leave nothing in the tree. A function begins with any word at
all, and the brace that closes the last function may be missing.

The grammar says nothing about places in a text: trees are compared without their locations
(`Node.bare`).
-/

namespace TinyCompiler

/-! ### Trees without locations -/

namespace Node

mutual

/-- A tree without its locations. -/
def bare : Node → Node
  | .missing => .missing
  | .program functions _ => .program (bareAll functions) none
  | .function name body _ => .function name (bareAll body) none
  | .bareStatement _ => .bareStatement none
  | .evaluate e _ => .evaluate e.bare none
  | .assign x e _ => .assign x e.bare none
  | .giveBack e _ => .giveBack e.bare none
  | .conditional c t e _ => .conditional c.bare t.bare e.bare none
  | .bareExpression _ => .bareExpression none
  | .constant v _ => .constant v none
  | .binary op l r _ => .binary op l.bare r.bare none
  | .unary op e _ => .unary op e.bare none
  | .call name es _ => .call name (bareAll es) none
  | .symbol x _ => .symbol x none
  | .rowless owner _ => .rowless owner none
termination_by structural n => n

/-- A row of trees without their locations. -/
def bareAll : List Node → List Node
  | [] => []
  | n :: ns => n.bare :: bareAll ns
termination_by structural ns => ns

end

lemma bareAll_eq_map (ns : List Node) : bareAll ns = ns.map bare := by
  induction ns with
  | nil => rfl
  | cons n ns ih => rw [bareAll, ih, List.map_cons]

end Node

/-- A function without its locations. -/
def Function.bare (f : Function) : Function := ⟨f.name, f.body.map Node.bare, none⟩

/-- A program without its locations. -/
def Program.bare (p : Program) : Program := ⟨p.functions.map Function.bare⟩

/-! ### Expressions -/

/-- The operators that make sums. -/
inductive Additive : Mark → Op → Prop
  | plus : Additive .plus .add
  | minus : Additive .minus .sub

/-- The operators that make products. -/
inductive Multiplicative : Mark → Op → Prop
  | star : Multiplicative .star .mul
  | slash : Multiplicative .slash .div

/-- What a row of words inside a statement can be, with the trees that it stands for. -/
inductive Phrase where
  | sum (e : Node)
  | product (e : Node)
  | unary (e : Node)
  | atom (e : Node)
  /-- Arguments with commas between them. -/
  | arguments (es : List Node)

/-- A row of words is a phrase. -/
inductive Derives : List Lexeme → Phrase → Prop
  | product {w : List Lexeme} {e : Node} (h : Derives w (.product e)) : Derives w (.sum e)
  | addition {u v : List Lexeme} {m : Mark} {op : Op} {l r : Node} (hleft : Derives u (.sum l))
      (hop : Additive m op) (hright : Derives v (.product r)) :
      Derives (u ++ .mark m :: v) (.sum (.binary (some op) l r none))
  | unary {w : List Lexeme} {e : Node} (h : Derives w (.unary e)) : Derives w (.product e)
  | multiplication {u v : List Lexeme} {m : Mark} {op : Op} {l r : Node}
      (hleft : Derives u (.product l)) (hop : Multiplicative m op)
      (hright : Derives v (.unary r)) :
      Derives (u ++ .mark m :: v) (.product (.binary (some op) l r none))
  | negation {w : List Lexeme} {e : Node} (h : Derives w (.unary e)) :
      Derives (.mark .minus :: w) (.unary (.unary (some .sub) e none))
  | atom {w : List Lexeme} {e : Node} (h : Derives w (.atom e)) : Derives w (.unary e)
  | number {v : Binary64} : Derives [.number v] (.atom (.constant v none))
  | name {x : String} : Derives [.identifier x] (.atom (.symbol x none))
  | emptyCall {f : String} :
      Derives [.identifier f, .mark .openParen, .mark .closeParen] (.atom (.call f [] none))
  | call {f : String} {w : List Lexeme} {es : List Node} (h : Derives w (.arguments es)) :
      Derives (.identifier f :: .mark .openParen :: (w ++ [.mark .closeParen]))
        (.atom (.call f es none))
  | group {w : List Lexeme} {e : Node} (h : Derives w (.sum e)) :
      Derives (.mark .openParen :: (w ++ [.mark .closeParen])) (.atom e)
  | lastArgument {w : List Lexeme} {e : Node} (h : Derives w (.sum e)) :
      Derives w (.arguments [e])
  | argument {u v : List Lexeme} {e : Node} {es : List Node} (hfirst : Derives u (.sum e))
      (hrest : Derives v (.arguments es)) :
      Derives (u ++ .mark .comma :: v) (.arguments (e :: es))

/-! ### Statements, functions and programs -/

/-- A row of words is a statement. -/
inductive DerivesStatement : List Lexeme → Node → Prop
  | giveBack : DerivesStatement [.keyword .kwReturn, .mark .semicolon] (.giveBack .missing none)
  | giveBackValue {w : List Lexeme} {e : Node} (h : Derives w (.sum e)) :
      DerivesStatement (.keyword .kwReturn :: (w ++ [.mark .semicolon])) (.giveBack e none)
  | assign {x : String} {w : List Lexeme} {e : Node} (h : Derives w (.sum e)) :
      DerivesStatement
        (.keyword .kwLet :: .identifier x :: .mark .equals :: (w ++ [.mark .semicolon]))
        (.assign x e none)
  | conditional {u v : List Lexeme} {c t : Node} (hcondition : Derives u (.sum c))
      (hthen : Derives v (.sum t)) :
      DerivesStatement
        (.keyword .kwIf :: .mark .openParen ::
          (u ++ .mark .closeParen :: (v ++ [.mark .semicolon])))
        (.conditional c t .missing none)
  | conditionalElse {u v w : List Lexeme} {c t e : Node} (hcondition : Derives u (.sum c))
      (hthen : Derives v (.sum t)) (helse : Derives w (.sum e)) :
      DerivesStatement
        (.keyword .kwIf :: .mark .openParen ::
          (u ++ .mark .closeParen :: (v ++ .keyword .kwElse :: (w ++ [.mark .semicolon]))))
        (.conditional c t e none)

/-- A row of words is a row of statements. -/
inductive DerivesBody : List Lexeme → List Node → Prop
  | nil : DerivesBody [] []
  | cons {u v : List Lexeme} {n : Node} {ns : List Node} (hfirst : DerivesStatement u n)
      (hrest : DerivesBody v ns) : DerivesBody (u ++ v) (n :: ns)

/-- What stands before the body of a function: any word, the name, and empty parentheses. -/
def functionHead (header : Lexeme) (name : String) : List Lexeme :=
  [header, .identifier name, .mark .openParen, .mark .closeParen, .mark .openBrace]

/-- A row of words is a row of functions, the last of which need not be closed. -/
inductive DerivesFunctions : List Lexeme → List Function → Prop
  | nil : DerivesFunctions [] []
  | unclosed {header : Lexeme} {name : String} {w : List Lexeme} {body : List Node}
      (hbody : DerivesBody w body) :
      DerivesFunctions (functionHead header name ++ w) [⟨name, body, none⟩]
  | cons {header : Lexeme} {name : String} {w v : List Lexeme} {body : List Node}
      {fs : List Function} (hbody : DerivesBody w body) (hrest : DerivesFunctions v fs) :
      DerivesFunctions (functionHead header name ++ w ++ .mark .closeBrace :: v)
        (⟨name, body, none⟩ :: fs)

/-- Tokens are a program, whose tree is given without locations. -/
def DerivesProgram (tokens : List Token) (p : Program) : Prop :=
  DerivesFunctions (tokens.map (·.lexeme)) p.functions

/-! ### Levels by binding power -/

/-- The expressions in which no operator outside parentheses binds its left operand less tightly
than a power. -/
def Phrase.level (power : Int) (e : Node) : Phrase :=
  if power ≤ 1 then .sum e else if power ≤ 3 then .product e else .unary e

namespace Derives

variable {w u v : List Lexeme} {e : Node}

lemma level_of_unary (h : Derives w (.unary e)) (power : Int) : Derives w (.level power e) := by
  rw [Phrase.level]
  split
  · exact .product (.unary h)
  · split
    · exact .unary h
    · exact h

/-- A level includes those of greater powers. -/
lemma level_mono {power power' : Int} (hle : power ≤ power') (h : Derives w (.level power' e)) :
    Derives w (.level power e) := by
  rw [Phrase.level] at h ⊢
  by_cases h₁ : power' ≤ 1
  · rw [if_pos h₁] at h
    rwa [if_pos (by omega)]
  · by_cases h₃ : power' ≤ 3
    · rw [if_neg h₁, if_pos h₃] at h
      by_cases h₁' : power ≤ 1
      · rw [if_pos h₁']
        exact .product h
      · rwa [if_neg h₁', if_pos (by omega)]
    · rw [if_neg h₁, if_neg h₃] at h
      exact h.level_of_unary power

/-- An operation has the level of the power with which its operator binds to the left, and so has
its left operand; its right operand has the level of the power to the right. -/
lemma operation {m : Mark} {op : Op} {l r : Node} (hop : m.op? = some op)
    (hleft : Derives u (.level op.leftPower l)) (hright : Derives v (.level op.rightPower r)) :
    Derives (u ++ .mark m :: v) (.level op.leftPower (.binary (some op) l r none)) := by
  cases m <;> simp only [Mark.op?, reduceCtorEq, Option.some.injEq] at hop <;> subst hop
  · exact .addition hleft .plus hright
  · exact .addition hleft .minus hright
  · exact .multiplication hleft .star hright
  · exact .multiplication hleft .slash hright

end Derives

end TinyCompiler
