import TinyCompiler.Proofs.Extension

/-!
# Places do not matter

Places in a text are carried from tokens to trees and complaints, and nothing is decided by them. To
say so, places are taken away everywhere, from tokens, from what is half read and from what comes
out (`Token.bareBy`, `Reader.bareBy`, `Program.bareBy`, `ParseError.bareBy`), and every step of
reading is shown to commute with that (`parse_bareBy`). Numbers may be changed on the way by any
function `f`: reading does not look at their values. Only the code of constants does, so that a
function that keeps whole parts changes no code (`lower_bareBy`).
-/

namespace TinyCompiler

/-! ### Taking places away -/

variable (f : Binary64 → Binary64)

/-- A word whose value is changed if it is a number. -/
def Lexeme.mapNumber : Lexeme → Lexeme
  | .number v => .number (f v)
  | w => w

/-- A token without its place. -/
def Token.bareBy (t : Token) : Token := ⟨t.lexeme.mapNumber f, none⟩

namespace Node

mutual

/-- A tree without its locations, the constants of which are changed. -/
def bareBy : Node → Node
  | .missing => .missing
  | .program functions _ => .program (bareAllBy functions) none
  | .function name body _ => .function name (bareAllBy body) none
  | .bareStatement _ => .bareStatement none
  | .evaluate e _ => .evaluate (bareBy e) none
  | .assign x e _ => .assign x (bareBy e) none
  | .giveBack e _ => .giveBack (bareBy e) none
  | .conditional c t e _ => .conditional (bareBy c) (bareBy t) (bareBy e) none
  | .bareExpression _ => .bareExpression none
  | .constant v _ => .constant (f v) none
  | .binary op l r _ => .binary op (bareBy l) (bareBy r) none
  | .unary op e _ => .unary op (bareBy e) none
  | .call name es _ => .call name (bareAllBy es) none
  | .symbol x _ => .symbol x none
  | .rowless owner _ => .rowless owner none
termination_by structural n => n

/-- A row of trees without their locations, the constants of which are changed. -/
def bareAllBy : List Node → List Node
  | [] => []
  | n :: ns => bareBy n :: bareAllBy ns
termination_by structural ns => ns

end

lemma bareAllBy_eq_map (ns : List Node) : bareAllBy f ns = ns.map (bareBy f) := by
  induction ns with
  | nil => rfl
  | cons n ns ih => rw [bareAllBy, ih, List.map_cons]

@[simp] lemma location_bareBy (n : Node) : (n.bareBy f).location = none := by
  cases n <;> rfl

@[simp] lemma isMissing_bareBy (n : Node) : (n.bareBy f).isMissing = n.isMissing := by
  cases n <;> rfl

end Node

/-- A function without its locations. -/
def Function.bareBy (g : Function) : Function := ⟨g.name, g.body.map (Node.bareBy f), none⟩

/-- A program without its locations. -/
def Program.bareBy (p : Program) : Program := ⟨p.functions.map (Function.bareBy f)⟩

namespace Node

mutual

theorem bareBy_id : (n : Node) → n.bareBy id = n.bare
  | .missing | .bareStatement _ | .bareExpression _ | .constant _ _ | .symbol _ _
  | .rowless _ _ => rfl
  | .program ns _ | .function _ ns _ | .call _ ns _ => by rw [bareBy, bare, bareAllBy_id ns]
  | .evaluate e _ | .assign _ e _ | .giveBack e _ | .unary _ e _ => by
    rw [bareBy, bare, bareBy_id e]
  | .conditional c t e _ => by rw [bareBy, bare, bareBy_id c, bareBy_id t, bareBy_id e]
  | .binary _ l r _ => by rw [bareBy, bare, bareBy_id l, bareBy_id r]

theorem bareAllBy_id : (ns : List Node) → bareAllBy id ns = bareAll ns
  | [] => rfl
  | n :: ns => by rw [bareAllBy, bareAll, bareBy_id n, bareAllBy_id ns]

end

end Node

/-- If nothing is done to its constants, a program loses its locations only. -/
lemma Program.bareBy_id (p : Program) : p.bareBy id = p.bare := by
  have hnode : Node.bareBy id = Node.bare := funext Node.bareBy_id
  have hfunction : Function.bareBy id = Function.bare := by
    funext g
    rw [Function.bareBy, Function.bare, hnode]
  rw [Program.bareBy, Program.bare, hfunction]

/-- A complaint without its place. -/
def ParseError.bareBy : ParseError → ParseError
  | .unexpectedToken t expected => .unexpectedToken (t.bareBy f) expected
  | .unexpectedEnd expected => .unexpectedEnd expected

/-- Something unfinished without its places. -/
def Pending.bareBy : Pending → Pending
  | .negation _ => .negation none
  | .operation left op => .operation (left.bareBy f) op
  | .group => .group
  | .argument name _ earlier => .argument name none (earlier.map (Node.bareBy f))

/-- What was read of an expression without its places. -/
def Progress.bareBy : Progress → Progress
  | .awaiting stack => .awaiting (stack.map (Pending.bareBy f))
  | .named name _ stack => .named name none (stack.map (Pending.bareBy f))
  | .opened name _ stack => .opened name none (stack.map (Pending.bareBy f))
  | .reached operand stack => .reached (operand.bareBy f) (stack.map (Pending.bareBy f))

/-- What a token does to an expression, without places. -/
def Advance.bareBy : Advance → Advance
  | .more p => .more (p.bareBy f)
  | .done expression => .done (expression.bareBy f)

/-- What was read of a statement without its places. -/
def PartialStatement.bareBy : PartialStatement → PartialStatement
  | .giveBack _ => .giveBack none
  | .giveBackValue _ value => .giveBackValue none (value.bareBy f)
  | .assign _ => .assign none
  | .assignName _ name => .assignName none name
  | .assignValue _ name value => .assignValue none name (value.bareBy f)
  | .conditional _ => .conditional none
  | .testing _ condition => .testing none (condition.bareBy f)
  | .whenTrue _ condition branch => .whenTrue none (condition.bareBy f) (branch.bareBy f)
  | .whenFalse _ condition thenBranch branch =>
    .whenFalse none (condition.bareBy f) (thenBranch.bareBy f) (branch.bareBy f)

/-- What a token does to a statement, without places. -/
def PartialStatement.Advance.bareBy : PartialStatement.Advance → PartialStatement.Advance
  | .more s => .more (s.bareBy f)
  | .done statement => .done (statement.bareBy f)

/-- What was read of a function without its places. -/
def Stage.bareBy : Stage → Stage
  | .outside => .outside
  | .announced _ => .announced none
  | .named _ name => .named none name
  | .opened _ name => .opened none name
  | .closed _ name => .closed none name
  | .body _ name statements => .body none name (statements.map (Node.bareBy f))
  | .inside _ name statements s =>
    .inside none name (statements.map (Node.bareBy f)) (s.bareBy f)

/-- What was read without its places. -/
def Reader.bareBy (r : Reader) : Reader := ⟨r.functions.map (Function.bareBy f), r.stage.bareBy f⟩

/-- What reading gives without places: a complaint loses its place, and `g` takes the places from
anything else. -/
def bareOutcome {α : Type} (g : α → α) : Except ParseError α → Except ParseError α
  | .ok a => .ok (g a)
  | .error e => .error (e.bareBy f)

/-! ### Reading commutes with it -/

namespace Token

variable (t : Token)

@[simp] lemma kind_bareBy : (t.bareBy f).kind = t.kind := by
  obtain ⟨lexeme, l⟩ := t
  cases lexeme <;> rfl

@[simp] lemma isMark_bareBy (m : Mark) : (t.bareBy f).isMark m = t.isMark m := by
  rw [isMark, isMark, kind_bareBy]

@[simp] lemma isKeyword_bareBy (k : Keyword) : (t.bareBy f).isKeyword k = t.isKeyword k := by
  rw [isKeyword, isKeyword, kind_bareBy]

end Token

@[simp] lemma Pending.power?_bareBy (p : Pending) : (p.bareBy f).power? = p.power? := by
  cases p <;> rfl

lemma Pending.close_bareBy (p : Pending) (operand : Node) :
    (p.bareBy f).close (operand.bareBy f) = (p.close operand).bareBy f := by
  cases p with
  | operation left op => rw [bareBy, close, close, Node.bareBy, Node.location_bareBy]
  | negation | group | argument => rfl

lemma closeAbove_bareBy (power : Int) (operand : Node) (stack : List Pending) :
    closeAbove power (operand.bareBy f) (stack.map (Pending.bareBy f)) =
      ((closeAbove power operand stack).1.bareBy f,
        (closeAbove power operand stack).2.map (Pending.bareBy f)) := by
  induction stack generalizing operand with
  | nil => rfl
  | cons p stack ih =>
    rw [List.map_cons, closeAbove, closeAbove, Pending.power?_bareBy]
    cases p.power? with
    | none => rfl
    | some q =>
      by_cases hq : power < q
      · simp only [if_pos hq]
        rw [Pending.close_bareBy, ih]
      · simp only [if_neg hq]
        rfl

lemma closeOperators_bareBy (operand : Node) (stack : List Pending) :
    closeOperators (operand.bareBy f) (stack.map (Pending.bareBy f)) =
      ((closeOperators operand stack).1.bareBy f,
        (closeOperators operand stack).2.map (Pending.bareBy f)) := by
  induction stack generalizing operand with
  | nil => rfl
  | cons p stack ih =>
    rw [List.map_cons, closeOperators, closeOperators, Pending.power?_bareBy]
    cases p.power? with
    | none => rfl
    | some q =>
      show closeOperators ((p.bareBy f).close (operand.bareBy f)) _ = _
      rw [Pending.close_bareBy, ih]

namespace Progress

variable (operand : Node) (stack : List Pending) (t : Token)

lemma onAwaiting_bareBy :
    onAwaiting (stack.map (Pending.bareBy f)) (t.bareBy f) =
      bareOutcome f (Progress.bareBy f) (onAwaiting stack t) := by
  obtain ⟨lexeme, l⟩ := t
  cases lexeme with
  | identifier | number | keyword => rfl
  | mark m => cases m <;> rfl

lemma onOperator_bareBy (least : Int) (op : Op) :
    onOperator least (operand.bareBy f) (stack.map (Pending.bareBy f)) op =
      (onOperator least operand stack op).bareBy f := by
  rw [onOperator, onOperator, closeAbove_bareBy]
  obtain ⟨left, below⟩ := closeAbove op.leftPower operand stack
  cases below with
  | nil =>
    by_cases hleast : op.leftPower < least
    · simp only [List.map_nil, if_pos hleast]
      rfl
    · simp only [List.map_nil, if_neg hleast]
      rfl
  | cons p below => rfl

lemma onDelimiter_bareBy :
    onDelimiter (operand.bareBy f) (stack.map (Pending.bareBy f)) (t.bareBy f) =
      bareOutcome f (Advance.bareBy f) (onDelimiter operand stack t) := by
  rw [onDelimiter, onDelimiter, closeOperators_bareBy]
  obtain ⟨last, below⟩ := closeOperators operand stack
  cases below with
  | nil => rfl
  | cons p below =>
    cases p with
    | negation | operation => rfl
    | group =>
      simp only [List.map_cons, Pending.bareBy, Token.isMark_bareBy]
      split <;> rfl
    | argument name l earlier =>
      simp only [List.map_cons, Pending.bareBy, Token.isMark_bareBy]
      split
      · simp [bareOutcome, Advance.bareBy, Progress.bareBy, Node.bareBy, Node.bareAllBy_eq_map]
      · split
        · simp [bareOutcome, Advance.bareBy, Progress.bareBy, Pending.bareBy]
        · rfl

lemma operator?_bareBy : operator? (t.bareBy f) = operator? t := by
  obtain ⟨lexeme, l⟩ := t
  cases lexeme <;> rfl

lemma onReached_bareBy (least : Int) :
    onReached least (operand.bareBy f) (stack.map (Pending.bareBy f)) (t.bareBy f) =
      bareOutcome f (Advance.bareBy f) (onReached least operand stack t) := by
  rw [onReached, onReached, operator?_bareBy]
  cases operator? t with
  | some op => exact congrArg Except.ok (onOperator_bareBy f operand stack least op)
  | none => exact onDelimiter_bareBy f operand stack t

lemma more_bareOutcome (x : Except ParseError Progress) :
    Advance.more <$> bareOutcome f (Progress.bareBy f) x =
      bareOutcome f (Advance.bareBy f) (Advance.more <$> x) := by
  cases x <;> rfl

/-- A step inside an expression. -/
lemma step_bareBy (least : Int) (p : Progress) :
    (p.bareBy f).step least (t.bareBy f) = bareOutcome f (Advance.bareBy f) (p.step least t) := by
  cases p with
  | awaiting stack =>
    simp only [bareBy, step]
    rw [onAwaiting_bareBy, more_bareOutcome]
  | named name l stack =>
    simp only [bareBy, step, Token.isMark_bareBy]
    split
    · rfl
    · exact onReached_bareBy f (.symbol name l) stack t least
  | opened name l stack =>
    simp only [bareBy, step, Token.isMark_bareBy]
    split
    · rfl
    · rw [← more_bareOutcome, ← onAwaiting_bareBy]
      rfl
  | reached operand stack => exact onReached_bareBy f operand stack t least

lemma finishReached_bareBy :
    finishReached (operand.bareBy f) (stack.map (Pending.bareBy f)) =
      bareOutcome f (Node.bareBy f) (finishReached operand stack) := by
  rw [finishReached, finishReached, closeOperators_bareBy]
  obtain ⟨last, below⟩ := closeOperators operand stack
  cases below with
  | nil => rfl
  | cons p below => cases p <;> rfl

lemma finish_bareBy (p : Progress) :
    (p.bareBy f).finish = bareOutcome f (Node.bareBy f) p.finish := by
  cases p with
  | awaiting | opened => rfl
  | named name l stack => exact finishReached_bareBy f (.symbol name l) stack
  | reached operand stack => exact finishReached_bareBy f operand stack

end Progress

namespace PartialStatement

variable (t : Token)

lemma endStatement_bareBy (n : Node) :
    endStatement (n.bareBy f) (t.bareBy f) =
      bareOutcome f (Advance.bareBy f) (endStatement n t) := by
  rw [endStatement, endStatement, Token.isMark_bareBy]
  split <;> rfl

lemma inExpression_bareBy {inside inside' : Progress → PartialStatement}
    {after after' : Node → Except ParseError Advance}
    (hinside : ∀ p, inside' (p.bareBy f) = (inside p).bareBy f)
    (hafter : ∀ n, after' (n.bareBy f) = bareOutcome f (Advance.bareBy f) (after n))
    (p : Progress) :
    inExpression (p.bareBy f) (t.bareBy f) inside' after' =
      bareOutcome f (Advance.bareBy f) (inExpression p t inside after) := by
  rw [inExpression, inExpression, Progress.step_bareBy]
  cases p.step 0 t with
  | error e => rfl
  | ok advance =>
    cases advance with
    | more p => exact congrArg (fun s => Except.ok (Advance.more s)) (hinside p)
    | done n => exact hafter n

/-- A step inside a statement. -/
lemma step_bareBy (s : PartialStatement) :
    (s.bareBy f).step (t.bareBy f) = bareOutcome f (Advance.bareBy f) (s.step t) := by
  cases s with
  | giveBack l =>
    simp only [bareBy, step, Token.kind_bareBy]
    split
    · exact inExpression_bareBy f t (fun p => rfl)
        (fun n => endStatement_bareBy f t (.giveBack n l)) .start
    · exact endStatement_bareBy f t (.giveBack .missing l)
  | giveBackValue l value =>
    exact inExpression_bareBy f t (fun p => rfl)
      (fun n => endStatement_bareBy f t (.giveBack n l)) value
  | assignValue l x value =>
    exact inExpression_bareBy f t (fun p => rfl)
      (fun n => endStatement_bareBy f t (.assign x n l)) value
  | whenFalse l condition thenBranch branch =>
    exact inExpression_bareBy f t (fun p => rfl)
      (fun n => endStatement_bareBy f t (.conditional condition thenBranch n l)) branch
  | assign l =>
    obtain ⟨lexeme, l'⟩ := t
    cases lexeme <;> rfl
  | assignName l x =>
    simp only [bareBy, step, Token.isMark_bareBy]
    split <;> rfl
  | conditional l =>
    simp only [bareBy, step, Token.isMark_bareBy]
    split <;> rfl
  | testing l condition =>
    refine inExpression_bareBy f t (fun p => rfl) (fun n => ?_) condition
    rw [Token.isMark_bareBy]
    split <;> rfl
  | whenTrue l condition branch =>
    refine inExpression_bareBy f t (fun p => rfl) (fun n => ?_) branch
    rw [Token.isKeyword_bareBy]
    split
    · rfl
    · exact endStatement_bareBy f t (.conditional condition n .missing l)

lemma lackAfter_bareBy (p : Progress) (expected : String) :
    lack.lackAfter (p.bareBy f) expected = (lack.lackAfter p expected).bareBy f := by
  rw [lack.lackAfter, lack.lackAfter, Progress.finish_bareBy]
  cases p.finish <;> rfl

lemma lack_bareBy (s : PartialStatement) : (s.bareBy f).lack = s.lack.bareBy f := by
  cases s with
  | giveBack | assign | assignName | conditional => rfl
  | testing | giveBackValue | assignValue | whenTrue | whenFalse => exact lackAfter_bareBy f _ _

end PartialStatement

namespace Reader

variable (t : Token)

lemma expectMark_bareBy (m : Mark) (expected : String) (r : Reader) :
    expectMark (t.bareBy f) m expected (r.bareBy f) =
      bareOutcome f (Reader.bareBy f) (expectMark t m expected r) := by
  rw [expectMark, expectMark, Token.isMark_bareBy]
  split <;> rfl

lemma beginStatement?_bareBy :
    Stage.beginStatement? (t.bareBy f) =
      (Stage.beginStatement? t).map (PartialStatement.bareBy f) := by
  obtain ⟨lexeme, l⟩ := t
  cases lexeme with
  | identifier | number | mark => rfl
  | keyword k => cases k <;> rfl

/-- A step of reading. -/
lemma step_bareBy (r : Reader) :
    (r.bareBy f).step (t.bareBy f) = bareOutcome f (Reader.bareBy f) (r.step t) := by
  obtain ⟨functions, stage⟩ := r
  cases stage with
  | outside => rfl
  | announced l =>
    obtain ⟨lexeme, l'⟩ := t
    cases lexeme <;> rfl
  | named l name => exact expectMark_bareBy f t _ _ ⟨functions, .opened l name⟩
  | opened l name => exact expectMark_bareBy f t _ _ ⟨functions, .closed l name⟩
  | closed l name => exact expectMark_bareBy f t _ _ ⟨functions, .body l name []⟩
  | body l name statements =>
    simp only [bareBy, Stage.bareBy, step, Token.isMark_bareBy, beginStatement?_bareBy]
    split
    · simp [bareOutcome, bareBy, Stage.bareBy, Function.bareBy]
    · cases Stage.beginStatement? t <;> rfl
  | inside l name statements s =>
    simp only [bareBy, Stage.bareBy, step, PartialStatement.step_bareBy]
    cases s.step t with
    | error e => rfl
    | ok advance =>
      cases advance with
      | more s => rfl
      | done n =>
        simp [bareOutcome, PartialStatement.Advance.bareBy, bareBy, Stage.bareBy]

lemma finish_bareBy (r : Reader) :
    (r.bareBy f).finish = bareOutcome f (Program.bareBy f) r.finish := by
  obtain ⟨functions, stage⟩ := r
  cases stage with
  | outside | announced | named | opened | closed => rfl
  | body l name statements =>
    simp [bareBy, Stage.bareBy, finish, bareOutcome, Program.bareBy, Function.bareBy]
  | inside l name statements s =>
    exact congrArg Except.error (PartialStatement.lack_bareBy f s)

/-- Reading from any point on. -/
lemma readTokens_bareBy (r : Reader) (ts : List Token) :
    (r.bareBy f).readTokens (ts.map (Token.bareBy f)) =
      bareOutcome f (Program.bareBy f) (r.readTokens ts) := by
  induction ts generalizing r with
  | nil => exact finish_bareBy f r
  | cons t ts ih =>
    rw [List.map_cons, readTokens, readTokens, step_bareBy]
    cases r.step t with
    | error e => rfl
    | ok r' => exact ih r'

end Reader

/-- Tokens without places are read as the tokens are, without places. -/
theorem parse_bareBy (ts : List Token) :
    parse (ts.map (Token.bareBy f)) = bareOutcome f (Program.bareBy f) (parse ts) :=
  Reader.readTokens_bareBy f Reader.start ts

/-! ### Code -/

/-- The shape of a tree: what is left of it without locations and without the values of its
constants. -/
def Node.shape (n : Node) : Node := n.bareBy fun _ => .zero

/-- Whatever values its numbers have, what is read has the shape of a sensible program. -/
lemma isStatement_shape_of_parse {ts : List Token} {p : Program} (h : parse ts = .ok p) :
    ∀ g ∈ p.functions, ∀ n ∈ g.body, n.shape.IsStatement := by
  -- the same words with zeros for all numbers are read to a program of this shape
  have hshape := parse_bareBy (fun _ => .zero) ts
  rw [h] at hshape
  have hvalues : ∀ t ∈ ts.map (Token.bareBy fun _ => .zero), t.lexeme ≠ .number .nan := by
    intro t ht
    obtain ⟨⟨lexeme, l⟩, -, rfl⟩ := List.mem_map.mp ht
    cases lexeme <;> simp [Token.bareBy, Lexeme.mapNumber, Binary64.zero]
  intro g hg n hn
  exact isSensible_of_parse hshape hvalues (g.bareBy _) (List.mem_map_of_mem hg) _
    (List.mem_map_of_mem hn)

section Lowering

variable {f} (hf : ∀ v, (f v).truncate = v.truncate)

namespace Node

mutual

theorem lowerExpression_bareBy (hf : ∀ v, (f v).truncate = v.truncate) :
    (e : Node) → e.shape.IsExpression → (b : Builder) →
    (e.bareBy f).lowerExpression b = e.lowerExpression b
  | .constant v _, _, b => by simp only [bareBy, lowerExpression, hf]
  | .symbol _ _, _, _ => rfl
  | .binary _ left right _, h, b => by
    cases h with
    | binary hleft hright =>
      simp only [bareBy, lowerExpression, lowerExpression_bareBy hf left hleft,
        lowerExpression_bareBy hf right hright]
  | .unary _ operand _, h, b => by
    cases h with
    | negation h => simp only [bareBy, lowerExpression, lowerExpression_bareBy hf operand h]
  | .call _ es _, h, b => by
    cases h with
    | call h => simp only [bareBy, lowerExpression, lowerArguments_bareBy hf es h]
  | .missing, h, _ | .program _ _, h, _ | .function _ _ _, h, _ | .bareStatement _, h, _
  | .evaluate _ _, h, _ | .assign _ _ _, h, _ | .giveBack _ _, h, _ | .conditional _ _ _ _, h, _
  | .bareExpression _, h, _ | .rowless _ _, h, _ => by cases h

theorem lowerArguments_bareBy (hf : ∀ v, (f v).truncate = v.truncate) :
    (es : List Node) → (∀ e ∈ bareAllBy (fun _ => .zero) es, e.IsExpression) →
    (position : Nat) → (b : Builder) →
    lowerArguments position (bareAllBy f es) b = lowerArguments position es b
  | [], _, _, _ => rfl
  | e :: es, h, position, b => by
    have he : e.shape.IsExpression := h _ (by simp [bareAllBy, shape])
    have hes := lowerArguments_bareBy hf es fun e he => h e (by simp [bareAllBy, he])
    simp only [bareAllBy, lowerArguments, lowerExpression_bareBy hf e he, hes]

end

lemma isMissing_of_shape {n : Node} (h : n.shape = .missing) : n.isMissing = true := by
  rw [← isMissing_bareBy fun _ => .zero]
  exact congrArg isMissing h

lemma shape_of_isStatement_giveBack {value : Node} {l : Option Location}
    (h : (giveBack value l).shape.IsStatement) :
    value.shape = .missing ∨ value.shape.IsExpression := by
  simp only [shape, bareBy] at h ⊢
  generalize value.bareBy _ = value' at h ⊢
  cases h with
  | giveBack => exact .inl rfl
  | giveBackValue he => exact .inr he

lemma shape_of_isStatement_conditional {c t e : Node} {l : Option Location}
    (h : (conditional c t e l).shape.IsStatement) :
    c.shape.IsExpression ∧ t.shape.IsExpression ∧
      (e.shape = .missing ∨ e.shape.IsExpression) := by
  simp only [shape, bareBy] at h ⊢
  generalize e.bareBy _ = e' at h ⊢
  cases h with
  | conditional hc ht => exact ⟨hc, ht, .inl rfl⟩
  | conditionalElse hc ht he => exact ⟨hc, ht, .inr he⟩

include hf

lemma lowerStatement_bareBy {n : Node} (h : n.shape.IsStatement) (b : Builder) :
    (n.bareBy f).lowerStatement b = n.lowerStatement b := by
  cases n with
  | giveBack value l =>
    simp only [bareBy, lowerStatement, isMissing_bareBy]
    rcases shape_of_isStatement_giveBack h with hmissing | hvalue
    · simp only [isMissing_of_shape hmissing, if_true]
    · simp only [lowerExpression_bareBy hf value hvalue]
  | assign x e l =>
    cases h with
    | assign he => simp only [bareBy, lowerStatement, lowerExpression_bareBy hf e he]
  | conditional c t e l =>
    obtain ⟨hc, ht, he⟩ := shape_of_isStatement_conditional h
    simp only [bareBy, lowerStatement, lowerConditional, isMissing_bareBy,
      lowerExpression_bareBy hf c hc, lowerExpression_bareBy hf t ht]
    rcases he with hmissing | helse
    · simp only [isMissing_of_shape hmissing, if_true]
    · simp only [lowerExpression_bareBy hf e helse]
  | missing | program | function | bareStatement | evaluate | bareExpression | constant | binary
  | unary | call | symbol | rowless => cases h

lemma foldlM_lowerStatement_bareBy {ns : List Node} (h : ∀ n ∈ ns, n.shape.IsStatement)
    (b : Builder) :
    (ns.map (bareBy f)).foldlM lowerStatement b = ns.foldlM lowerStatement b := by
  induction ns generalizing b with
  | nil => rfl
  | cons n ns ih =>
    rw [List.map_cons, List.foldlM_cons, List.foldlM_cons,
      lowerStatement_bareBy hf (h n List.mem_cons_self)]
    exact congrArg _ (funext fun b => ih (fun n hn => h n (List.mem_cons_of_mem _ hn)) b)

end Node

include hf in
lemma foldlM_lower_bareBy {gs : List Function} (h : ∀ g ∈ gs, ∀ n ∈ g.body, n.shape.IsStatement)
    (b : Builder) :
    (gs.map (Function.bareBy f)).foldlM Function.lower b = gs.foldlM Function.lower b := by
  induction gs generalizing b with
  | nil => rfl
  | cons g gs ih =>
    have hg : Function.lower b (g.bareBy f) = Function.lower b g := by
      simp only [Function.lower, Function.bareBy,
        Node.foldlM_lowerStatement_bareBy hf (h g List.mem_cons_self)]
    rw [List.map_cons, List.foldlM_cons, List.foldlM_cons, hg]
    exact congrArg _ (funext fun b => ih (fun g hg => h g (List.mem_cons_of_mem _ hg)) b)

include hf in
/-- A program that was read has the same code without its places, and whatever becomes of its
constants if their whole parts are kept. -/
theorem lower_bareBy {ts : List Token} {p : Program} (h : parse ts = .ok p) :
    (p.bareBy f).lower = p.lower := by
  have hnames : (p.bareBy f).functions.map (·.name) = p.functions.map (·.name) := by
    simp [Program.bareBy, Function.bareBy]
  have hcode := foldlM_lower_bareBy hf (isStatement_shape_of_parse h)
  rw [Program.lower, Program.lower, hnames]
  simp only [Program.bareBy, hcode]

end Lowering

end TinyCompiler
