import TinyCompiler.Proofs.Grammar

/-!
# What is read is derived

While an expression is being read, the words taken so far are those of the stack and of the operand
on top of it. `Spells` says this of every state of reading, `Progress.Spells.step` carries it over a
token, and when the expression ends, the words taken are an expression of the grammar. The same is
done for statements and for whole programs, where what is already complete is said by what it needs
to become a longer row (`Spells.argument`, `Stage.Spells`).
-/

namespace TinyCompiler

/-! ### Marks -/

lemma Token.isMark_iff {t : Token} {m : Mark} : t.isMark m = true ↔ t.lexeme = .mark m := by
  rw [Token.isMark, Token.kind]
  cases t.lexeme <;> simp [Lexeme.kind]

lemma Token.isKeyword_iff {t : Token} {k : Keyword} :
    t.isKeyword k = true ↔ t.lexeme = .keyword k := by
  rw [Token.isKeyword, Token.kind]
  cases t.lexeme <;> simp [Lexeme.kind]

/-! ### Powers -/

/-- How tightly what lies on top of a stack binds the operand that comes next. -/
def slotPower (least : Int) : List Pending → Int
  | [] => least
  | p :: _ => p.power?.getD 0

lemma Op.leftPower_pos (op : Op) : 0 < op.leftPower := by
  cases op <;> decide

lemma Pending.power?_pos {p : Pending} {q : Int} (h : p.power? = some q) : 0 < q := by
  cases p with
  | negation l =>
    obtain rfl : negationPower = q := by simpa [Pending.power?] using h
    decide
  | operation left op =>
    obtain rfl : op.rightPower = q := by simpa [Pending.power?] using h
    have := op.leftPower_pos
    rw [Op.rightPower]
    omega
  | group => cases h
  | argument name l earlier => cases h

/-- All operators bind tighter than nothing. -/
lemma closeOperators_eq_closeAbove (operand : Node) (stack : List Pending) :
    closeOperators operand stack = closeAbove 0 operand stack := by
  induction stack generalizing operand with
  | nil => rfl
  | cons p stack ih =>
    rw [closeOperators, closeAbove]
    cases hp : p.power? with
    | none => rfl
    | some q =>
      show closeOperators (p.close operand) stack =
        if 0 < q then closeAbove 0 (p.close operand) stack else (operand, p :: stack)
      rw [ih, if_pos (Pending.power?_pos hp)]

/-- Operators that bind tighter than a power have been closed. -/
lemma slotPower_of_closeAbove {power : Int} {operand left : Node} {stack below : List Pending}
    (h : closeAbove power operand stack = (left, below)) (hpower : 0 ≤ power) :
    below = [] ∨ ∀ least, slotPower least below ≤ power := by
  induction stack generalizing operand with
  | nil =>
    obtain ⟨-, rfl⟩ : operand = left ∧ [] = below := by simpa [closeAbove] using h
    exact .inl rfl
  | cons p stack ih =>
    rw [closeAbove] at h
    cases hp : p.power? with
    | none =>
      obtain ⟨-, rfl⟩ : operand = left ∧ p :: stack = below := by simpa [hp] using h
      refine .inr fun least => ?_
      simpa [slotPower, hp] using hpower
    | some q =>
      simp only [hp] at h
      split at h
      · exact ih h
      · obtain ⟨-, rfl⟩ : operand = left ∧ p :: stack = below := by simpa using h
        refine .inr fun least => ?_
        simp only [slotPower, hp, Option.getD_some]
        omega

/-! ### Expressions -/

/-- Words are those of a stack, in which every operator has the operands its powers allow. -/
inductive Spells (least : Int) : List Lexeme → List Pending → Prop
  | nil : Spells least [] []
  | negation {w : List Lexeme} {stack : List Pending} {l : Option Location}
      (h : Spells least w stack) : Spells least (w ++ [.mark .minus]) (.negation l :: stack)
  | operation {w u : List Lexeme} {stack : List Pending} {m : Mark} {op : Op} {left : Node}
      (h : Spells least w stack) (hop : m.op? = some op)
      (hpower : slotPower least stack ≤ op.leftPower)
      (hleft : Derives u (.level op.leftPower left.bare)) :
      Spells least (w ++ u ++ [.mark m]) (.operation left op :: stack)
  | group {w : List Lexeme} {stack : List Pending} (h : Spells least w stack) :
      Spells least (w ++ [.mark .openParen]) (.group :: stack)
  | argument {w u : List Lexeme} {stack : List Pending} {name : String} {l : Option Location}
      {earlier : List Node} (h : Spells least w stack)
      (hearlier : ∀ v es, Derives v (.arguments es) →
        Derives (u ++ v) (.arguments (earlier.map Node.bare ++ es))) :
      Spells least (w ++ [.identifier name, .mark .openParen] ++ u)
        (.argument name l earlier :: stack)

/-- Words are those that have been taken when reading stands somewhere. -/
inductive Progress.Spells (least : Int) : List Lexeme → Progress → Prop
  | awaiting {w : List Lexeme} {stack : List Pending} (h : TinyCompiler.Spells least w stack) :
      Progress.Spells least w (.awaiting stack)
  | named {w : List Lexeme} {stack : List Pending} {name : String} {l : Option Location}
      (h : TinyCompiler.Spells least w stack) :
      Progress.Spells least (w ++ [.identifier name]) (.named name l stack)
  | opened {w : List Lexeme} {stack : List Pending} {name : String} {l : Option Location}
      (h : TinyCompiler.Spells least w stack) :
      Progress.Spells least (w ++ [.identifier name, .mark .openParen]) (.opened name l stack)
  | reached {w u : List Lexeme} {stack : List Pending} {operand : Node}
      (h : TinyCompiler.Spells least w stack) (hoperand : Derives u (.atom operand.bare)) :
      Progress.Spells least (w ++ u) (.reached operand stack)

namespace Spells

variable {least power : Int} {w u : List Lexeme} {stack below : List Pending} {operand left : Node}

/-- Closing the operator on top of a stack makes an operand of the operator's own level, which
suits what lies below. -/
lemma close {p : Pending} {q : Int} (h : Spells least w (p :: stack)) (hp : p.power? = some q)
    (hpower : power < q) (hoperand : Derives u (.level q operand.bare)) :
    ∃ w' u', w ++ u = w' ++ u' ∧ Spells least w' stack ∧
      Derives u' (.level (slotPower least stack) (p.close operand).bare) ∧
      Derives u' (.level power (p.close operand).bare) := by
  cases h with
  | @negation w' _ l h =>
    -- a negation is an operand of every level
    obtain rfl : negationPower = q := by simpa [Pending.power?] using hp
    have hnegated :
        Derives (.mark .minus :: u) (.unary (Pending.close operand (.negation l)).bare) := by
      show Derives _ (.unary (.unary (some .sub) operand.bare none))
      exact .negation hoperand
    exact ⟨w', .mark .minus :: u, by simp, h, hnegated.level_of_unary _, hnegated.level_of_unary _⟩
  | @operation w' v _ m op left h hop hslot hleft =>
    obtain rfl : op.rightPower = q := by simpa [Pending.power?] using hp
    have hwhole : Derives (v ++ .mark m :: u)
        (.level op.leftPower (Pending.close operand (.operation left op)).bare) :=
      Derives.operation hop hleft hoperand
    -- an operator that is closed binds to the right tighter than `power`, so not less to the left
    refine ⟨w', v ++ .mark m :: u, by simp, h, hwhole.level_mono hslot, hwhole.level_mono ?_⟩
    rw [Op.rightPower] at hpower
    omega
  | group h => cases hp
  | argument h hearlier => cases hp

/-- Closing operators keeps the words, and the operand that is left has the level of the power down
to which they were closed. -/
lemma closeAbove (h : Spells least w stack)
    (hoperand : Derives u (.level (slotPower least stack) operand.bare))
    (hoperand' : Derives u (.level power operand.bare))
    (hclose : TinyCompiler.closeAbove power operand stack = (left, below)) :
    ∃ w' u', w ++ u = w' ++ u' ∧ Spells least w' below ∧
      Derives u' (.level (slotPower least below) left.bare) ∧
      Derives u' (.level power left.bare) := by
  induction stack generalizing w u operand with
  | nil =>
    obtain ⟨rfl, rfl⟩ : operand = left ∧ [] = below := by
      simpa [TinyCompiler.closeAbove] using hclose
    exact ⟨w, u, rfl, h, hoperand, hoperand'⟩
  | cons p stack ih =>
    rw [TinyCompiler.closeAbove] at hclose
    cases hp : p.power? with
    | none =>
      obtain ⟨rfl, rfl⟩ : operand = left ∧ p :: stack = below := by simpa [hp] using hclose
      exact ⟨w, u, rfl, h, hoperand, hoperand'⟩
    | some q =>
      simp only [hp] at hclose
      split at hclose
      next hlt =>
        have hq : Derives u (.level q operand.bare) := by
          simpa only [slotPower, hp, Option.getD_some] using hoperand
        obtain ⟨w', u', hwords, hstack, hslot, hlevel⟩ := h.close hp hlt hq
        rw [hwords]
        exact ih hstack hslot hlevel hclose
      next hlt =>
        obtain ⟨rfl, rfl⟩ : operand = left ∧ p :: stack = below := by simpa using hclose
        exact ⟨w, u, rfl, h, hoperand, hoperand'⟩

end Spells

/-- What a token makes of an expression agrees with the words: either the token has been taken, or
the words before it are the expression. -/
def Advance.Spells (least : Int) (w : List Lexeme) (next : Lexeme) : Advance → Prop
  | .more p => p.Spells least (w ++ [next])
  | .done e => Derives w (.level least e.bare)

lemma exists_of_map_more {x : Except ParseError Progress} {a : Advance}
    (h : Advance.more <$> x = .ok a) : ∃ p, x = .ok p ∧ Advance.more p = a := by
  cases x with
  | error e => cases h
  | ok p =>
    cases h
    exact ⟨p, rfl, rfl⟩

namespace Progress.Spells

variable {least : Int} {w u : List Lexeme} {stack : List Pending} {operand : Node} {t : Token}

/-- Where an operand must come, a token is taken as its beginning. -/
lemma onAwaiting {p : Progress} (h : TinyCompiler.Spells least w stack)
    (hstep : Progress.onAwaiting stack t = .ok p) : p.Spells least (w ++ [t.lexeme]) := by
  rw [Progress.onAwaiting] at hstep
  split at hstep
  next value hlexeme =>
    cases hstep
    rw [hlexeme]
    exact .reached h .number
  next name hlexeme =>
    cases hstep
    rw [hlexeme]
    exact .named h
  next hlexeme =>
    cases hstep
    rw [hlexeme]
    exact .awaiting (.group h)
  next hlexeme =>
    cases hstep
    rw [hlexeme]
    exact .awaiting (.negation h)
  next => cases hstep

lemma onOperator {m : Mark} {op : Op} (h : TinyCompiler.Spells least w stack)
    (hoperand : Derives u (.atom operand.bare)) (hop : m.op? = some op) :
    (Progress.onOperator least operand stack op).Spells least (w ++ u) (.mark m) := by
  have hunary : Derives u (.unary operand.bare) := .atom hoperand
  rcases hclose : closeAbove op.leftPower operand stack with ⟨left, below⟩
  obtain ⟨w', u', hwords, hbelow, hslot, hleft⟩ :=
    h.closeAbove (hunary.level_of_unary _) (hunary.level_of_unary _) hclose
  have hpower := slotPower_of_closeAbove hclose (Int.le_of_lt op.leftPower_pos)
  rw [Progress.onOperator]
  rw [hclose, hwords]
  cases below with
  | nil =>
    -- only here does the least power count: an operator inside parentheses always goes on
    show Advance.Spells least _ _ (if op.leftPower < least then _ else _)
    split
    · cases hbelow
      exact hslot
    next hleast => exact .awaiting (.operation hbelow hop (Int.not_lt.mp hleast) hleft)
  | cons p below =>
    obtain hnil | hpower := hpower
    · cases hnil
    · exact .awaiting (.operation hbelow hop (hpower least) hleft)

/-- A closing parenthesis, a comma, or the end of the expression. -/
lemma onDelimiter {a : Advance} (h : TinyCompiler.Spells least w stack)
    (hoperand : Derives u (.atom operand.bare))
    (hstep : Progress.onDelimiter operand stack t = .ok a) : a.Spells least (w ++ u) t.lexeme := by
  have hunary : Derives u (.unary operand.bare) := .atom hoperand
  rcases hclose : closeAbove 0 operand stack with ⟨whole, below⟩
  obtain ⟨w', u', hwords, hbelow, hslot, hwhole⟩ :=
    h.closeAbove (hunary.level_of_unary _) (hunary.level_of_unary _) hclose
  have hpower := slotPower_of_closeAbove hclose (Int.le_refl 0)
  rw [Progress.onDelimiter] at hstep
  rw [closeOperators_eq_closeAbove, hclose] at hstep
  rw [hwords]
  cases hbelow with
  | nil =>
    -- nothing encloses the expression, which ends before the token
    cases hstep
    exact hslot
  | @negation w' stack l h =>
    -- a negation on top would have been closed
    obtain hnil | hpower := hpower
    · cases hnil
    · have : negationPower ≤ 0 := hpower 0
      exact absurd this (by decide)
  | @operation w' v stack m op left h hop hslot hleft =>
    obtain hnil | hpower := hpower
    · cases hnil
    · have : op.leftPower + 1 ≤ 0 := hpower 0
      have := op.leftPower_pos
      omega
  | @group w' stack h =>
    simp only at hstep
    split at hstep
    next hmark =>
      cases hstep
      rw [Token.isMark_iff.mp hmark]
      have hgroup : Derives (.mark .openParen :: (u' ++ [.mark .closeParen])) (.atom whole.bare) :=
        .group hwhole
      simpa [Advance.Spells] using Progress.Spells.reached h hgroup
    next => cases hstep
  | @argument w' v stack name l earlier h hearlier =>
    simp only at hstep
    split at hstep
    next hmark =>
      cases hstep
      rw [Token.isMark_iff.mp hmark]
      have harguments := hearlier u' [whole.bare] (.lastArgument hwhole)
      have hcall :
          Derives (.identifier name :: .mark .openParen :: ((v ++ u') ++ [.mark .closeParen]))
            (.atom (Node.call name (earlier ++ [whole]) l).bare) := by
        rw [Node.bare, Node.bareAll_eq_map, List.map_append]
        exact .call harguments
      simpa [Advance.Spells] using Progress.Spells.reached h hcall
    next =>
      split at hstep
      next hmark =>
        -- after a comma one more argument is complete
        cases hstep
        rw [Token.isMark_iff.mp hmark]
        have hlonger : ∀ v' es, Derives v' (.arguments es) →
            Derives ((v ++ u' ++ [.mark .comma]) ++ v')
              (.arguments ((earlier ++ [whole]).map Node.bare ++ es)) := by
          intro v' es hes
          simpa using hearlier _ _ (.argument hwhole hes)
        simpa [Advance.Spells] using
          Progress.Spells.awaiting (TinyCompiler.Spells.argument (l := l) h hlonger)
      next => cases hstep

lemma onReached {a : Advance} (h : TinyCompiler.Spells least w stack)
    (hoperand : Derives u (.atom operand.bare))
    (hstep : Progress.onReached least operand stack t = .ok a) :
    a.Spells least (w ++ u) t.lexeme := by
  rw [Progress.onReached] at hstep
  cases hop : operator? t with
  | none =>
    rw [hop] at hstep
    exact onDelimiter h hoperand hstep
  | some op =>
    rw [hop] at hstep
    cases hstep
    rw [operator?] at hop
    split at hop
    next m hlexeme =>
      rw [hlexeme]
      exact onOperator h hoperand hop
    next => cases hop

/-- One token, wherever reading stands. -/
lemma step {p : Progress} {a : Advance} (h : p.Spells least w) (hstep : p.step least t = .ok a) :
    a.Spells least w t.lexeme := by
  cases h with
  | @awaiting w stack h =>
    obtain ⟨q, hq, rfl⟩ := exists_of_map_more hstep
    exact onAwaiting h hq
  | @named w stack name l h =>
    simp only [Progress.step] at hstep
    split at hstep
    next hmark =>
      cases hstep
      rw [Token.isMark_iff.mp hmark]
      simpa [Advance.Spells] using Progress.Spells.opened (l := l) h
    next => exact onReached h .name hstep
  | @opened w stack name l h =>
    simp only [Progress.step] at hstep
    split at hstep
    next hmark =>
      cases hstep
      rw [Token.isMark_iff.mp hmark]
      have hcall : Derives [.identifier name, .mark .openParen, .mark .closeParen]
          (.atom (Node.call name [] l).bare) := .emptyCall
      simpa [Advance.Spells] using Progress.Spells.reached h hcall
    next =>
      -- the first argument is read as if it followed others, of which there are none
      obtain ⟨q, hq, rfl⟩ := exists_of_map_more hstep
      have hargument : TinyCompiler.Spells least (w ++ [.identifier name, .mark .openParen] ++ [])
          (.argument name l [] :: stack) := .argument h fun v es hes => hes
      rw [List.append_nil] at hargument
      exact onAwaiting hargument hq
  | reached h hoperand => exact onReached h hoperand hstep

end Progress.Spells

/-! ### Statements -/

/-- Words are those that have been taken when the reading of a statement stands somewhere. -/
inductive PartialStatement.Spells : List Lexeme → PartialStatement → Prop
  | giveBack {l : Option Location} : Spells [.keyword .kwReturn] (.giveBack l)
  | giveBackValue {w : List Lexeme} {l : Option Location} {value : Progress}
      (h : value.Spells 0 w) : Spells (.keyword .kwReturn :: w) (.giveBackValue l value)
  | assign {l : Option Location} : Spells [.keyword .kwLet] (.assign l)
  | assignName {l : Option Location} {x : String} :
      Spells [.keyword .kwLet, .identifier x] (.assignName l x)
  | assignValue {w : List Lexeme} {l : Option Location} {x : String} {value : Progress}
      (h : value.Spells 0 w) :
      Spells (.keyword .kwLet :: .identifier x :: .mark .equals :: w) (.assignValue l x value)
  | conditional {l : Option Location} : Spells [.keyword .kwIf] (.conditional l)
  | testing {w : List Lexeme} {l : Option Location} {condition : Progress}
      (h : condition.Spells 0 w) :
      Spells (.keyword .kwIf :: .mark .openParen :: w) (.testing l condition)
  | whenTrue {u w : List Lexeme} {l : Option Location} {condition : Node} {branch : Progress}
      (hcondition : Derives u (.sum condition.bare)) (h : branch.Spells 0 w) :
      Spells (.keyword .kwIf :: .mark .openParen :: (u ++ .mark .closeParen :: w))
        (.whenTrue l condition branch)
  | whenFalse {u v w : List Lexeme} {l : Option Location} {condition thenBranch : Node}
      {branch : Progress} (hcondition : Derives u (.sum condition.bare))
      (hthen : Derives v (.sum thenBranch.bare)) (h : branch.Spells 0 w) :
      Spells
        (.keyword .kwIf :: .mark .openParen ::
          (u ++ .mark .closeParen :: (v ++ .keyword .kwElse :: w)))
        (.whenFalse l condition thenBranch branch)

/-- What a token makes of a statement agrees with the words, the token included. -/
def PartialStatement.Advance.Spells (w : List Lexeme) : PartialStatement.Advance → Prop
  | .more s => s.Spells w
  | .done n => DerivesStatement w n.bare

lemma Progress.Spells.start : Progress.start.Spells 0 [] := .awaiting .nil

namespace PartialStatement

variable {w u : List Lexeme} {t : Token} {a : Advance}

/-- Nothing but a semicolon ends a statement. -/
lemma Spells.endStatement {n : Node} (hend : PartialStatement.endStatement n t = .ok a)
    (hn : DerivesStatement (w ++ [.mark .semicolon]) n.bare) : a.Spells (w ++ [t.lexeme]) := by
  rw [PartialStatement.endStatement] at hend
  split at hend
  next hmark =>
    cases hend
    rw [Token.isMark_iff.mp hmark]
    exact hn
  next => cases hend

/-- A token inside an expression either goes on with the expression or comes after it. -/
lemma Spells.inExpression {p : Progress} {inside : Progress → PartialStatement}
    {after : Node → Except ParseError Advance} (h : p.Spells 0 u)
    (hinside : ∀ q, q.Spells 0 (u ++ [t.lexeme]) → (inside q).Spells (w ++ [t.lexeme]))
    (hafter : ∀ e, Derives u (.sum e.bare) → after e = .ok a → a.Spells (w ++ [t.lexeme]))
    (hstep : PartialStatement.inExpression p t inside after = .ok a) :
    a.Spells (w ++ [t.lexeme]) := by
  rw [PartialStatement.inExpression] at hstep
  split at hstep
  next q hq =>
    cases hstep
    exact hinside q (h.step hq)
  next e he => exact hafter e (h.step he) hstep
  next => cases hstep

/-- One token, wherever the reading of a statement stands. -/
lemma Spells.step {s : PartialStatement} (h : s.Spells w) (hstep : s.step t = .ok a) :
    a.Spells (w ++ [t.lexeme]) := by
  cases h with
  | @giveBack l =>
    simp only [PartialStatement.step] at hstep
    split at hstep
    next =>
      refine Spells.inExpression Progress.Spells.start (fun q hq => .giveBackValue hq) ?_ hstep
      intro e he hend
      exact Spells.endStatement hend (.giveBackValue he)
    next => exact Spells.endStatement hstep .giveBack
  | @giveBackValue w l value h =>
    refine Spells.inExpression h (fun q hq => .giveBackValue hq) ?_ hstep
    intro e he hend
    exact Spells.endStatement hend (.giveBackValue he)
  | @assign l =>
    simp only [PartialStatement.step] at hstep
    split at hstep
    next x hlexeme =>
      cases hstep
      rw [hlexeme]
      exact .assignName
    next => cases hstep
  | @assignName l x =>
    simp only [PartialStatement.step] at hstep
    split at hstep
    next hmark =>
      cases hstep
      rw [Token.isMark_iff.mp hmark]
      exact .assignValue Progress.Spells.start
    next => cases hstep
  | @assignValue w l x value h =>
    refine Spells.inExpression h (fun q hq => .assignValue hq) ?_ hstep
    intro e he hend
    exact Spells.endStatement hend (.assign he)
  | @conditional l =>
    simp only [PartialStatement.step] at hstep
    split at hstep
    next hmark =>
      cases hstep
      rw [Token.isMark_iff.mp hmark]
      exact .testing Progress.Spells.start
    next => cases hstep
  | @testing w l condition h =>
    refine Spells.inExpression h (fun q hq => .testing hq) ?_ hstep
    intro e he hafter
    split at hafter
    next hmark =>
      cases hafter
      rw [Token.isMark_iff.mp hmark]
      exact .whenTrue he Progress.Spells.start
    next => cases hafter
  | @whenTrue u w l condition branch hcondition h =>
    refine Spells.inExpression h ?_ ?_ hstep
    · intro q hq
      simpa using PartialStatement.Spells.whenTrue hcondition hq
    · intro e he hafter
      split at hafter
      next hkeyword =>
        cases hafter
        rw [Token.isKeyword_iff.mp hkeyword]
        simpa [PartialStatement.Advance.Spells] using
          PartialStatement.Spells.whenFalse hcondition he Progress.Spells.start
      next =>
        refine Spells.endStatement hafter ?_
        simpa [Node.bare] using DerivesStatement.conditional hcondition he
  | @whenFalse u v w l condition thenBranch branch hcondition hthen h =>
    refine Spells.inExpression h ?_ ?_ hstep
    · intro q hq
      simpa using PartialStatement.Spells.whenFalse hcondition hthen hq
    · intro e he hafter
      refine Spells.endStatement hafter ?_
      simpa [Node.bare] using DerivesStatement.conditionalElse hcondition hthen he

/-- A statement begins with its keyword. -/
lemma spells_of_beginStatement? {s : PartialStatement} (h : Stage.beginStatement? t = some s) :
    s.Spells [t.lexeme] := by
  rw [Stage.beginStatement?] at h
  split at h
  next hlexeme =>
    cases h
    rw [hlexeme]
    exact .giveBack
  next hlexeme =>
    cases h
    rw [hlexeme]
    exact .assign
  next hlexeme =>
    cases h
    rw [hlexeme]
    exact .conditional
  next => cases h

end PartialStatement

/-! ### Functions and programs -/

lemma DerivesBody.append {u v : List Lexeme} {ms ns : List Node} (hu : DerivesBody u ms)
    (hv : DerivesBody v ns) : DerivesBody (u ++ v) (ms ++ ns) := by
  induction hu with
  | nil => exact hv
  | cons hfirst hrest ih =>
    rw [List.append_assoc]
    exact .cons hfirst ih

/-- Words are those that have been taken of a function. -/
inductive Stage.Spells : List Lexeme → Stage → Prop
  | outside : Spells [] .outside
  | announced {header : Lexeme} {l : Option Location} : Spells [header] (.announced l)
  | named {header : Lexeme} {l : Option Location} {name : String} :
      Spells [header, .identifier name] (.named l name)
  | opened {header : Lexeme} {l : Option Location} {name : String} :
      Spells [header, .identifier name, .mark .openParen] (.opened l name)
  | closed {header : Lexeme} {l : Option Location} {name : String} :
      Spells [header, .identifier name, .mark .openParen, .mark .closeParen] (.closed l name)
  | body {header : Lexeme} {l : Option Location} {name : String} {w : List Lexeme}
      {statements : List Node} (h : DerivesBody w (statements.map Node.bare)) :
      Spells (functionHead header name ++ w) (.body l name statements)
  | inside {header : Lexeme} {l : Option Location} {name : String} {w u : List Lexeme}
      {statements : List Node} {s : PartialStatement}
      (h : DerivesBody w (statements.map Node.bare)) (hs : s.Spells u) :
      Spells (functionHead header name ++ w ++ u) (.inside l name statements s)

/-- Words are those that have been taken of a program: complete functions, which any row of
functions can follow, and part of one more. -/
def Reader.Spells (w : List Lexeme) (r : Reader) : Prop :=
  ∃ u v, w = u ++ v ∧ r.stage.Spells v ∧
    ∀ v' fs, DerivesFunctions v' fs →
      DerivesFunctions (u ++ v') (r.functions.map Function.bare ++ fs)

namespace Reader

variable {r r' : Reader} {t : Token} {w : List Lexeme}

lemma expectMark_eq_ok {m : Mark} {expected : String} {next : Reader}
    (h : expectMark t m expected next = .ok r') : t.lexeme = .mark m ∧ r' = next := by
  rw [expectMark] at h
  split at h
  next hmark =>
    cases h
    exact ⟨Token.isMark_iff.mp hmark, rfl⟩
  next => cases h

/-- One token, wherever the reading of a program stands. -/
lemma Spells.step (h : r.Spells w) (hstep : r.step t = .ok r') : r'.Spells (w ++ [t.lexeme]) := by
  obtain ⟨u, v, rfl, hstage, hfunctions⟩ := h
  obtain ⟨functions, stage⟩ := r
  cases hstage with
  | outside =>
    cases hstep
    exact ⟨u, [t.lexeme], by simp, .announced, hfunctions⟩
  | @announced header l =>
    simp only [Reader.step] at hstep
    split at hstep
    next name hlexeme =>
      cases hstep
      exact ⟨u, _, by rw [hlexeme, List.append_assoc]; rfl, .named, hfunctions⟩
    next => cases hstep
  | @named header l name =>
    obtain ⟨hlexeme, rfl⟩ := expectMark_eq_ok hstep
    exact ⟨u, _, by rw [hlexeme, List.append_assoc]; rfl, .opened, hfunctions⟩
  | @opened header l name =>
    obtain ⟨hlexeme, rfl⟩ := expectMark_eq_ok hstep
    exact ⟨u, _, by rw [hlexeme, List.append_assoc]; rfl, .closed, hfunctions⟩
  | @closed header l name =>
    obtain ⟨hlexeme, rfl⟩ := expectMark_eq_ok hstep
    exact ⟨u, _, by rw [hlexeme, List.append_assoc]; rfl, .body .nil, hfunctions⟩
  | @body header l name w statements h =>
    simp only [Reader.step] at hstep
    split at hstep
    next hmark =>
      cases hstep
      refine ⟨u ++ (functionHead header name ++ w ++ [.mark .closeBrace]), [], ?_, .outside, ?_⟩
      · rw [Token.isMark_iff.mp hmark]
        simp
      · intro v' fs hfs
        simpa [Function.bare] using hfunctions _ _ (.cons h hfs)
    next =>
      split at hstep
      next s hs =>
        cases hstep
        have hbegun := PartialStatement.spells_of_beginStatement? hs
        exact ⟨u, _, List.append_assoc .., .inside h hbegun, hfunctions⟩
      next => cases hstep
  | @inside header l name w v statements s h hs =>
    simp only [Reader.step] at hstep
    split at hstep
    next s' hs' =>
      cases hstep
      refine ⟨u, functionHead header name ++ w ++ (v ++ [t.lexeme]), by simp, ?_, hfunctions⟩
      exact .inside h (hs.step hs')
    next n hn =>
      cases hstep
      refine ⟨u, functionHead header name ++ (w ++ (v ++ [t.lexeme])), by simp, ?_, hfunctions⟩
      refine .body ?_
      have hone : DerivesBody (v ++ [t.lexeme] ++ []) [n.bare] := .cons (hs.step hn) .nil
      simpa using h.append hone
    next => cases hstep

/-- The tokens may end between functions and between the statements of a body. -/
lemma Spells.finish {p : Program} (h : r.Spells w) (hfinish : r.finish = .ok p) :
    DerivesFunctions w p.bare.functions := by
  obtain ⟨u, v, rfl, hstage, hfunctions⟩ := h
  obtain ⟨functions, stage⟩ := r
  cases hstage with
  | outside =>
    cases hfinish
    simpa [Program.bare] using hfunctions [] [] .nil
  | body h =>
    cases hfinish
    simpa [Program.bare, Function.bare] using hfunctions _ _ (.unclosed h)
  | _ => cases hfinish

/-- What is read from some point on is derived from all words, those before that point included. -/
lemma Spells.readTokens {p : Program} {tokens : List Token} (h : r.Spells w)
    (hread : r.readTokens tokens = .ok p) :
    DerivesFunctions (w ++ tokens.map (·.lexeme)) p.bare.functions := by
  induction tokens generalizing r w with
  | nil =>
    rw [List.map_nil, List.append_nil]
    exact h.finish hread
  | cons t ts ih =>
    rw [Reader.readTokens] at hread
    split at hread
    next r' hr' => simpa using ih (h.step hr') hread
    next => cases hread

end Reader

/-- Every program that is read is one of the grammar. -/
lemma derivesProgram_of_parse {tokens : List Token} {p : Program} (h : parse tokens = .ok p) :
    DerivesProgram tokens p.bare := by
  have hstart : Reader.start.Spells [] := ⟨[], [], rfl, .outside, fun v fs hfs => hfs⟩
  exact hstart.readTokens h

end TinyCompiler
