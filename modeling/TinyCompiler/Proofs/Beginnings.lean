import TinyCompiler.Proofs.Extension
import TinyCompiler.Proofs.Viability
import TinyCompiler.Proofs.Visits

/-!
# Where nodes begin

Every node of a program that is read from a text begins at one of the tokens, and in the order of a
walk over the tree the places where nodes begin go forward through the text. Only an operation
begins where another node does, namely where its left operand begins.

While a program is read, the nodes built so far begin at places of tokens taken so far, in their
order (`BeginAt`). This is said of every state of reading, with the places of all tokens taken, and
one token carries it on. The places of tokens go strictly forward (`Tiles.pairwise_earlier`), so the
nodes of the whole program do, too (`BeginAt.isChain`).
-/

namespace TinyCompiler

/-! ### Places in order -/

/-- A place stands before another one of the same text. -/
def Location.Before (a b : Location) : Prop :=
  a.line < b.line ∨ a.line = b.line ∧ a.column < b.column

lemma Location.Before.trans {a b c : Location} (h : a.Before b) (h' : b.Before c) :
    a.Before c := by
  rw [Location.Before] at h h' ⊢
  omega

lemma Location.not_before_self (a : Location) : ¬ a.Before a := by
  rw [Location.Before]
  omega

/-- A place that is known stands before another one that is known. -/
def Earlier (x y : Option Location) : Prop := ∃ a b, x = some a ∧ y = some b ∧ a.Before b

lemma Location.before_after_concat (file : String) (before : List Char) (c : Char) :
    (Location.after file before).Before (Location.after file (before ++ [c])) := by
  rw [Location.Before, Location.after, Location.after]
  by_cases hc : c = '\n'
  · have hcount : (before ++ [c]).count '\n' = before.count '\n' + 1 := by simp [hc]
    left
    simp only [hcount]
    omega
  · have hcount : (before ++ [c]).count '\n' = before.count '\n' := by simp [hc]
    have hcolumn : ((before ++ [c]).reverse.takeWhile (· != '\n')).length =
        (before.reverse.takeWhile (· != '\n')).length + 1 := by simp [hc]
    right
    simp only [hcount, hcolumn, true_and]
    omega

/-- Every character leads on. -/
lemma Location.before_after_append (file : String) (before : List Char) {text : List Char}
    (htext : text ≠ []) :
    (Location.after file before).Before (Location.after file (before ++ text)) := by
  induction text generalizing before with
  | nil => exact absurd rfl htext
  | cons c text ih =>
    have hstep := Location.before_after_concat file before c
    by_cases htext' : text = []
    · rwa [htext']
    · have hrest := ih (before ++ [c]) htext'
      rw [List.append_assoc] at hrest
      exact hstep.trans hrest

/-- Tokens stand at or after the place where their text begins, each before those that follow. -/
lemma Tiles.pairwise_earlier {file : String} {before text after : List Char}
    {tokens : List Token} (h : Tiles file before text after tokens) :
    (∀ t ∈ tokens, ∃ u, t.location = some (Location.after file (before ++ u))) ∧
      tokens.Pairwise fun s t => Earlier s.location t.location := by
  induction h with
  | nil => simp
  | @gap before gap text after tokens hgap hrest ih =>
    refine ⟨fun t ht => ?_, ih.2⟩
    obtain ⟨u, hu⟩ := ih.1 t ht
    exact ⟨gap ++ u, by rw [hu, List.append_assoc]⟩
  | @lexeme before word text after lexeme tokens hword hrest ih =>
    have hlater : ∀ t ∈ tokens, ∃ u,
        t.location = some (Location.after file (before ++ (word ++ u))) := by
      intro t ht
      obtain ⟨u, hu⟩ := ih.1 t ht
      exact ⟨u, by rw [hu, List.append_assoc]⟩
    constructor
    · intro t ht
      rcases List.mem_cons.mp ht with rfl | ht
      · exact ⟨[], by rw [List.append_nil]⟩
      · obtain ⟨u, hu⟩ := hlater t ht
        exact ⟨word ++ u, hu⟩
    · refine List.pairwise_cons.mpr ⟨fun t ht => ?_, ih.2⟩
      obtain ⟨u, hu⟩ := hlater t ht
      exact ⟨_, _, rfl, hu, Location.before_after_append file before (by simp [hword.ne_nil])⟩

/-! ### Nodes and their places -/

/-- Whether nodes of a kind begin at a place of their own. An empty place begins nowhere. -/
def NodeKind.hasPlace : NodeKind → Bool
  | .missing | .binary => false
  | _ => true

lemma Node.ne_missing_of_hasPlace {n : Node} (h : n.kind.hasPlace = true) : n ≠ .missing := by
  rintro rfl
  cases h

/-- A node begins where another one does or before it. -/
def Node.NotAfter (m n : Node) : Prop :=
  ∃ a b, m.location = some a ∧ n.location = some b ∧ (a = b ∨ a.Before b)

instance : Trans Node.NotAfter Node.NotAfter Node.NotAfter where
  trans := by
    rintro m n o ⟨a, b, ha, hb, hab⟩ ⟨b', c, hb', hc, hbc⟩
    obtain rfl : b = b' := Option.some.inj (hb.symm.trans hb')
    refine ⟨a, c, ha, hc, ?_⟩
    rcases hab with rfl | hab
    · exact hbc
    · rcases hbc with rfl | hbc
      · exact .inr hab
      · exact .inr (hab.trans hbc)

/-- Nodes, and those below them, begin at places of a row in the order of the row. Only an operation
has no place of its own and begins with its left operand. -/
inductive BeginAt : List Node → List (Option Location) → Prop
  | nil : BeginAt [] []
  /-- A place where no node begins. -/
  | skip {ns : List Node} {l : Option Location} {ls : List (Option Location)} (h : BeginAt ns ls) :
      BeginAt ns (l :: ls)
  | node {n : Node} {ns : List Node} {ls : List (Option Location)}
      (hn : n.kind.hasPlace = true) (h : BeginAt (n.children ++ ns) ls) :
      BeginAt (n :: ns) (n.location :: ls)
  | operation {op : Option Op} {left right : Node} {ns : List Node} {ls : List (Option Location)}
      (h : BeginAt (left :: right :: ns) ls) :
      BeginAt (.binary op left right left.location :: ns) ls

namespace BeginAt

variable {n left right : Node} {ns ms cs : List Node} {l : Option Location}
  {ls ks : List (Option Location)}

/-- No empty place begins anywhere. -/
lemma ne_missing (h : BeginAt ns ls) : ∀ n ∈ ns, n ≠ .missing := by
  induction h with
  | nil => simp
  | skip h ih => exact ih
  | node hn h ih =>
    intro m hm
    rcases List.mem_cons.mp hm with rfl | hm
    · exact Node.ne_missing_of_hasPlace hn
    · exact ih m (List.mem_append_right _ hm)
  | operation h ih =>
    intro m hm
    rcases List.mem_cons.mp hm with rfl | hm
    · simp
    · exact ih m (List.mem_cons_of_mem _ (List.mem_cons_of_mem _ hm))

lemma append (h : BeginAt ms ls) (h' : BeginAt ns ks) : BeginAt (ms ++ ns) (ls ++ ks) := by
  induction h with
  | nil => exact h'
  | skip h ih => exact .skip ih
  | node hn h ih =>
    rw [List.append_assoc] at ih
    exact .node hn ih
  | operation h ih => exact .operation ih

lemma empty (ls : List (Option Location)) : BeginAt [] ls := by
  induction ls with
  | nil => exact .nil
  | cons l ls ih => exact .skip ih

lemma concat (h : BeginAt ns ls) (l : Option Location) : BeginAt ns (ls ++ [l]) := by
  simpa using h.append (.empty [l])

/-- A node begins before the nodes right below it. -/
lemma above (h : BeginAt cs ls) (hn : n.kind.hasPlace = true)
    (hchildren : n.children = cs.filter (!·.isMissing)) : BeginAt [n] (n.location :: ls) := by
  refine .node hn ?_
  have hpresent : cs.filter (!·.isMissing) = cs := by
    refine List.filter_eq_self.mpr fun c hc => ?_
    simpa using Node.isMissing_eq_false_iff.mpr (h.ne_missing c hc)
  rwa [List.append_nil, hchildren, hpresent]

lemma binary {op : Option Op} (hleft : BeginAt [left] ls) (hright : BeginAt [right] ks) :
    BeginAt [.binary op left right left.location] (ls ++ ks) :=
  .operation (hleft.append hright)

/-- What comes next in a walk is further on in the text, or it is the left operand of the operation
that comes before it. -/
def Follows (m n : Node) : Prop :=
  Earlier m.location n.location ∨
    m.location = n.location ∧ ∃ op right l, m = .binary op n right l

lemma Follows.exists_of_location_eq {m : Node} (h : Follows m n) (heq : m.location = n.location) :
    ∃ op right l, m = .binary op n right l := by
  obtain ⟨a, b, ha, hb, hbefore⟩ | ⟨-, hoperation⟩ := h
  · rw [ha, hb, Option.some.injEq] at heq
    rw [heq] at hbefore
    exact absurd hbefore b.not_before_self
  · exact hoperation

lemma Follows.notAfter {m : Node} (h : Follows m n) {a : Location} (ha : m.location = some a) :
    m.NotAfter n := by
  obtain ⟨a, b, ha, hb, hbefore⟩ | ⟨heq, -⟩ := h
  · exact ⟨a, b, ha, hb, .inr hbefore⟩
  · exact ⟨a, a, ha, heq.symm.trans ha, .inl rfl⟩

/-- If places go forward, so do the nodes that begin there. -/
lemma isChain (h : BeginAt ns ls) (hls : ls.Pairwise Earlier) :
    (ns.flatMap Node.nodes).IsChain Follows ∧
      ∀ m ∈ ns.flatMap Node.nodes, m.location ∈ ls := by
  induction h with
  | nil => simp
  | skip h ih =>
    obtain ⟨hchain, hmem⟩ := ih hls.of_cons
    exact ⟨hchain, fun m hm => List.mem_cons_of_mem _ (hmem m hm)⟩
  | @node n ns ls hn h ih =>
    obtain ⟨hchain, hmem⟩ := ih hls.of_cons
    have hnodes : (n :: ns).flatMap Node.nodes = n :: (n.children ++ ns).flatMap Node.nodes := by
      rw [List.flatMap_cons, Node.nodes_eq_cons (Node.ne_missing_of_hasPlace hn),
        List.flatMap_append, List.cons_append]
    rw [hnodes]
    constructor
    · refine hchain.cons fun m hm => .inl ?_
      exact List.rel_of_pairwise_cons hls (hmem m (List.mem_of_mem_head? hm))
    · intro m hm
      rcases List.mem_cons.mp hm with rfl | hm
      · exact List.mem_cons_self
      · exact List.mem_cons_of_mem _ (hmem m hm)
  | @operation op left right ns ls h ih =>
    obtain ⟨hchain, hmem⟩ := ih hls
    have hleft : left ≠ .missing := h.ne_missing left List.mem_cons_self
    have hnodes : (Node.binary op left right left.location :: ns).flatMap Node.nodes =
        .binary op left right left.location :: (left :: right :: ns).flatMap Node.nodes := by
      simp
    rw [hnodes]
    constructor
    · refine hchain.cons fun m hm => .inr ?_
      -- the walk goes on with the left operand itself
      rw [List.flatMap_cons, Node.nodes_eq_cons hleft] at hm
      obtain rfl : left = m := by simpa using hm
      exact ⟨rfl, op, right, _, rfl⟩
    · intro m hm
      rcases List.mem_cons.mp hm with rfl | hm
      · exact hmem left (by simp [Node.nodes_eq_cons hleft])
      · exact hmem m hm

end BeginAt

/-! ### Expressions -/

/-- The nodes that a stack holds begin at places of tokens taken for it, all of which are given. -/
inductive StackBeginsAt : List Pending → List (Option Location) → Prop
  | nil : StackBeginsAt [] []
  | negation {stack : List Pending} {ls : List (Option Location)} {l : Option Location}
      (h : StackBeginsAt stack ls) : StackBeginsAt (.negation l :: stack) (ls ++ [l])
  | operation {stack : List Pending} {ls ks : List (Option Location)} {l : Option Location}
      {left : Node} {op : Op} (h : StackBeginsAt stack ls) (hleft : BeginAt [left] ks) :
      StackBeginsAt (.operation left op :: stack) (ls ++ (ks ++ [l]))
  | group {stack : List Pending} {ls : List (Option Location)} {l : Option Location}
      (h : StackBeginsAt stack ls) : StackBeginsAt (.group :: stack) (ls ++ [l])
  | argument {stack : List Pending} {ls ks : List (Option Location)} {name : String}
      {l : Option Location} {earlier : List Node} (h : StackBeginsAt stack ls)
      (hearlier : BeginAt earlier ks) :
      StackBeginsAt (.argument name l earlier :: stack) (ls ++ l :: ks)

namespace StackBeginsAt

variable {stack below : List Pending} {operand left : Node} {ls ks : List (Option Location)}

/-- Closing the operator on top of a stack makes a node that begins where the operator or its left
operand does. -/
lemma close {p : Pending} {q : Int} (h : StackBeginsAt (p :: stack) ls) (hp : p.power? = some q)
    (hoperand : BeginAt [operand] ks) :
    ∃ ls' ks', ls ++ ks = ls' ++ ks' ∧ StackBeginsAt stack ls' ∧
      BeginAt [p.close operand] ks' := by
  cases h with
  | @negation _ ls' l h =>
    have hnegated : BeginAt [.unary (some .sub) operand l] (l :: ks) :=
      hoperand.above (n := .unary (some .sub) operand l) rfl rfl
    exact ⟨ls', l :: ks, by simp, h, hnegated⟩
  | @operation _ ls' ms l left op h hleft =>
    exact ⟨ls', ms ++ l :: ks, by simp, h, hleft.binary (.skip hoperand)⟩
  | group h => cases hp
  | argument h hearlier => cases hp

lemma closeAbove {power : Int} (h : StackBeginsAt stack ls) (hoperand : BeginAt [operand] ks)
    (hclose : TinyCompiler.closeAbove power operand stack = (left, below)) :
    ∃ ls' ks', ls ++ ks = ls' ++ ks' ∧ StackBeginsAt below ls' ∧ BeginAt [left] ks' := by
  induction stack generalizing ls ks operand with
  | nil =>
    cases hclose
    exact ⟨ls, ks, rfl, h, hoperand⟩
  | cons p stack ih =>
    rw [TinyCompiler.closeAbove] at hclose
    cases hp : p.power? with
    | none =>
      rw [hp] at hclose
      cases hclose
      exact ⟨ls, ks, rfl, h, hoperand⟩
    | some q =>
      simp only [hp] at hclose
      split at hclose
      · obtain ⟨ls', ks', hplaces, hstack, hclosed⟩ := h.close hp hoperand
        rw [hplaces]
        exact ih hstack hclosed hclose
      · cases hclose
        exact ⟨ls, ks, rfl, h, hoperand⟩

end StackBeginsAt

/-- The nodes that have been read begin at places of the tokens taken, all of which are given. -/
inductive Progress.BeginsAt : Progress → List (Option Location) → Prop
  | awaiting {stack : List Pending} {ls : List (Option Location)} (h : StackBeginsAt stack ls) :
      BeginsAt (.awaiting stack) ls
  | named {stack : List Pending} {ls : List (Option Location)} {name : String}
      {l : Option Location} (h : StackBeginsAt stack ls) :
      BeginsAt (.named name l stack) (ls ++ [l])
  | opened {stack : List Pending} {ls : List (Option Location)} {name : String}
      {l l' : Option Location} (h : StackBeginsAt stack ls) :
      BeginsAt (.opened name l stack) (ls ++ [l, l'])
  | reached {stack : List Pending} {ls ks : List (Option Location)} {operand : Node}
      (h : StackBeginsAt stack ls) (hoperand : BeginAt [operand] ks) :
      BeginsAt (.reached operand stack) (ls ++ ks)

/-- What a token at a place makes of an expression, after tokens at the given places. -/
def Advance.BeginsAt (ls : List (Option Location)) (l : Option Location) : Advance → Prop
  | .more p => p.BeginsAt (ls ++ [l])
  | .done e => BeginAt [e] ls

namespace Progress.BeginsAt

variable {p : Progress} {stack : List Pending} {operand : Node} {ls ks : List (Option Location)}
  {t : Token} {least : Int} {a : Advance}

lemma onAwaiting {q : Progress} (h : StackBeginsAt stack ls)
    (hstep : Progress.onAwaiting stack t = .ok q) : q.BeginsAt (ls ++ [t.location]) := by
  rw [Progress.onAwaiting] at hstep
  split at hstep
  next value hlexeme =>
    cases hstep
    exact .reached h (BeginAt.nil.above (n := .constant value t.location) rfl rfl)
  next name hlexeme =>
    cases hstep
    exact .named h
  next hlexeme =>
    cases hstep
    exact .awaiting (.group h)
  next hlexeme =>
    cases hstep
    exact .awaiting (.negation h)
  next => cases hstep

lemma onOperator (op : Op) (h : StackBeginsAt stack ls) (hoperand : BeginAt [operand] ks) :
    (Progress.onOperator least operand stack op).BeginsAt (ls ++ ks) t.location := by
  rcases hclose : closeAbove op.leftPower operand stack with ⟨left, below⟩
  obtain ⟨ls', ks', hplaces, hbelow, hleft⟩ := h.closeAbove hoperand hclose
  have hmore : (Progress.awaiting (.operation left op :: below)).BeginsAt
      (ls ++ ks ++ [t.location]) := by
    rw [hplaces, List.append_assoc]
    exact .awaiting (.operation hbelow hleft)
  rw [Progress.onOperator, hclose]
  cases below with
  | nil =>
    show Advance.BeginsAt _ _ (if op.leftPower < least then _ else _)
    split
    · cases hbelow
      rw [hplaces]
      exact hleft
    · exact hmore
  | cons p below => exact hmore

lemma onDelimiter (h : StackBeginsAt stack ls) (hoperand : BeginAt [operand] ks)
    (hstep : Progress.onDelimiter operand stack t = .ok a) :
    a.BeginsAt (ls ++ ks) t.location := by
  rw [Progress.onDelimiter] at hstep
  rcases closeOperators_cases operand stack with ⟨e, hclose⟩ | ⟨e, b, below, hclose, hb, -⟩
  · rw [hclose] at hstep
    rw [closeOperators_eq_closeAbove] at hclose
    obtain ⟨ls', ks', hplaces, hbelow, he⟩ := h.closeAbove hoperand hclose
    cases hbelow
    cases hstep
    rw [hplaces]
    exact he
  · rw [hclose] at hstep
    rw [closeOperators_eq_closeAbove] at hclose
    obtain ⟨ls', ks', hplaces, hbelow, he⟩ := h.closeAbove hoperand hclose
    rw [hplaces]
    cases hbelow with
    | negation h => cases hb
    | operation h hleft => cases hb
    | @group _ ls' l h =>
      simp only at hstep
      split at hstep <;> cases hstep
      -- the parentheses themselves leave nothing
      have hinner : BeginAt [e] (l :: (ks' ++ [t.location])) := .skip (he.concat _)
      simpa [Advance.BeginsAt] using Progress.BeginsAt.reached h hinner
    | @argument _ ls' ms name l earlier h hearlier =>
      have harguments : BeginAt (earlier ++ [e]) (ms ++ ks' ++ [t.location]) :=
        (hearlier.append he).concat _
      simp only at hstep
      split at hstep
      next =>
        cases hstep
        have hcall : BeginAt [.call name (earlier ++ [e]) l] (l :: (ms ++ ks' ++ [t.location])) :=
          harguments.above (n := .call name (earlier ++ [e]) l) rfl rfl
        simpa [Advance.BeginsAt] using Progress.BeginsAt.reached h hcall
      next =>
        split at hstep <;> cases hstep
        simpa [Advance.BeginsAt] using
          Progress.BeginsAt.awaiting (StackBeginsAt.argument (l := l) h harguments)

lemma onReached (h : StackBeginsAt stack ls) (hoperand : BeginAt [operand] ks)
    (hstep : Progress.onReached least operand stack t = .ok a) :
    a.BeginsAt (ls ++ ks) t.location := by
  rw [Progress.onReached] at hstep
  split at hstep
  · cases hstep
    exact onOperator _ h hoperand
  · exact onDelimiter h hoperand hstep

/-- One token, wherever reading stands. -/
lemma step (h : p.BeginsAt ls) (hstep : p.step least t = .ok a) : a.BeginsAt ls t.location := by
  cases h with
  | @awaiting stack ls h =>
    obtain ⟨q, hq, rfl⟩ := exists_of_map_more hstep
    exact onAwaiting h hq
  | @named stack ls name l h =>
    simp only [Progress.step] at hstep
    split at hstep
    · cases hstep
      simpa [Advance.BeginsAt] using Progress.BeginsAt.opened (l := l) h
    · exact onReached h (BeginAt.nil.above (n := .symbol name l) rfl rfl) hstep
  | @opened stack ls name l l' h =>
    simp only [Progress.step] at hstep
    split at hstep
    · cases hstep
      have hcall : BeginAt [.call name [] l] [l, l', t.location] :=
        (BeginAt.empty [l', t.location]).above (n := .call name [] l) rfl rfl
      simpa [Advance.BeginsAt] using Progress.BeginsAt.reached h hcall
    · obtain ⟨q, hq, rfl⟩ := exists_of_map_more hstep
      exact onAwaiting (.argument h (.empty [l'])) hq
  | reached h hoperand => exact onReached h hoperand hstep

end Progress.BeginsAt

/-! ### Statements -/

namespace PartialStatement

/-- What there is of a statement that is being read: the place where it begins, its complete
expressions, and the one that is being read. -/
structure Contents where
  location : Option Location
  complete : List Node
  current : Progress

/-- What has been read of a statement. -/
def contents : PartialStatement → Contents
  | .giveBack l | .assign l | .assignName l _ | .conditional l => ⟨l, [], .start⟩
  | .giveBackValue l p | .assignValue l _ p | .testing l p => ⟨l, [], p⟩
  | .whenTrue l c p => ⟨l, [c], p⟩
  | .whenFalse l c t p => ⟨l, [c, t], p⟩

/-- The nodes that have been read of a statement begin at places of the tokens taken for it. -/
def BeginsAt (s : PartialStatement) (ls : List (Option Location)) : Prop :=
  ∃ ks ms, ls = s.contents.location :: (ks ++ ms) ∧ BeginAt s.contents.complete ks ∧
    s.contents.current.BeginsAt ms

/-- What a token makes of a statement, all tokens up to it being at the given places. -/
def Advance.BeginsAt (ls : List (Option Location)) : Advance → Prop
  | .more s => s.BeginsAt ls
  | .done n => BeginAt [n] ls

variable {s s' : PartialStatement} {p : Progress} {n : Node} {cs : List Node} {t : Token}
  {a : Advance} {l : Option Location} {ls ks : List (Option Location)}

/-- Where no expression is being read, all that was read is complete. -/
lemma BeginsAt.complete (h : s.BeginsAt ls) (hs : s.contents = ⟨l, cs, .start⟩) :
    ∃ ks, ls = l :: ks ∧ BeginAt cs ks := by
  obtain ⟨ks, ms, rfl, hcomplete, hcurrent⟩ := h
  rw [hs] at hcomplete hcurrent ⊢
  cases hcurrent with
  | awaiting hstack =>
    cases hstack
    exact ⟨ks, by rw [List.append_nil], hcomplete⟩

/-- A token after complete expressions, after which another expression or none is read. -/
lemma BeginsAt.of_complete (h : BeginAt cs ks) (hs : s.contents = ⟨l, cs, .start⟩)
    (l' : Option Location) : s.BeginsAt (l :: ks ++ [l']) := by
  refine ⟨ks ++ [l'], [], by rw [hs]; simp, ?_, ?_⟩
  · rw [hs]
    exact h.concat l'
  · rw [hs]
    exact .awaiting .nil

/-- The expressions of a statement are complete when it ends. -/
lemma beginsAt_of_endStatement (hend : endStatement n t = .ok a) (h : BeginAt cs ks)
    (hn : n.kind.hasPlace = true) (hchildren : n.children = cs.filter (!·.isMissing)) :
    a.BeginsAt (n.location :: ks ++ [t.location]) := by
  rw [endStatement] at hend
  split at hend <;> cases hend
  exact (h.above hn hchildren).concat _

/-- A token inside an expression either goes on with the expression or comes after it. -/
lemma BeginsAt.inExpression {inside : Progress → PartialStatement}
    {after : Node → Except ParseError Advance} (h : (inside p).BeginsAt ls)
    (hinside : ∀ q, (inside q).contents = ⟨l, cs, q⟩)
    (hafter : ∀ e ks, BeginAt (cs ++ [e]) ks → after e = .ok a →
      a.BeginsAt (l :: ks ++ [t.location]))
    (hstep : PartialStatement.inExpression p t inside after = .ok a) :
    a.BeginsAt (ls ++ [t.location]) := by
  obtain ⟨ks, ms, rfl, hcomplete, hcurrent⟩ := h
  rw [hinside] at hcomplete hcurrent ⊢
  rw [PartialStatement.inExpression] at hstep
  split at hstep
  next q hq =>
    cases hstep
    refine ⟨ks, ms ++ [t.location], by rw [hinside]; simp, ?_, ?_⟩
    · rwa [hinside]
    · rw [hinside]
      exact hcurrent.step hq
  next e he => exact hafter e _ (hcomplete.append (hcurrent.step he)) hstep
  next => cases hstep

/-- One token, wherever the reading of a statement stands. -/
lemma BeginsAt.step (h : s.BeginsAt ls) (hstep : s.step t = .ok a) :
    a.BeginsAt (ls ++ [t.location]) := by
  cases s with
  | giveBack l =>
    simp only [PartialStatement.step] at hstep
    split at hstep
    · have hvalue : (PartialStatement.giveBackValue l .start).BeginsAt ls := h
      refine BeginsAt.inExpression hvalue (fun q => rfl) (fun e ks hks hend => ?_) hstep
      exact beginsAt_of_endStatement hend hks rfl rfl
    · obtain ⟨ks, rfl, hks⟩ := h.complete rfl
      exact beginsAt_of_endStatement hstep hks rfl rfl
  | giveBackValue l value =>
    refine BeginsAt.inExpression h (fun q => rfl) (fun e ks hks hend => ?_) hstep
    exact beginsAt_of_endStatement hend hks rfl rfl
  | assign l =>
    obtain ⟨ks, rfl, hks⟩ := h.complete rfl
    simp only [PartialStatement.step] at hstep
    split at hstep <;> cases hstep
    exact .of_complete hks rfl _
  | assignName l x =>
    obtain ⟨ks, rfl, hks⟩ := h.complete rfl
    simp only [PartialStatement.step] at hstep
    split at hstep <;> cases hstep
    exact .of_complete hks rfl _
  | assignValue l x value =>
    refine BeginsAt.inExpression h (fun q => rfl) (fun e ks hks hend => ?_) hstep
    exact beginsAt_of_endStatement hend hks rfl rfl
  | conditional l =>
    obtain ⟨ks, rfl, hks⟩ := h.complete rfl
    simp only [PartialStatement.step] at hstep
    split at hstep <;> cases hstep
    exact .of_complete hks rfl _
  | testing l condition =>
    refine BeginsAt.inExpression h (fun q => rfl) (fun e ks hks hafter => ?_) hstep
    split at hafter <;> cases hafter
    exact .of_complete hks rfl _
  | whenTrue l condition branch =>
    refine BeginsAt.inExpression h (fun q => rfl) (fun e ks hks hafter => ?_) hstep
    split at hafter
    · cases hafter
      exact .of_complete hks rfl _
    · exact beginsAt_of_endStatement hafter hks rfl rfl
  | whenFalse l condition thenBranch branch =>
    refine BeginsAt.inExpression h (fun q => rfl) (fun e ks hks hafter => ?_) hstep
    exact beginsAt_of_endStatement hafter hks rfl rfl

/-- A statement begins at its keyword. -/
lemma beginsAt_of_beginStatement? (h : Stage.beginStatement? t = some s) :
    s.BeginsAt [t.location] := by
  rw [Stage.beginStatement?] at h
  split at h <;> cases h <;> exact ⟨[], [], rfl, .nil, .awaiting .nil⟩

end PartialStatement

/-! ### Functions and programs -/

/-- The nodes that have been read of a function begin at places of the tokens taken for it. -/
inductive Stage.BeginsAt : Stage → List (Option Location) → Prop
  | outside : BeginsAt .outside []
  | announced {l : Option Location} {ls : List (Option Location)} :
      BeginsAt (.announced l) (l :: ls)
  | named {l : Option Location} {ls : List (Option Location)} {name : String} :
      BeginsAt (.named l name) (l :: ls)
  | opened {l : Option Location} {ls : List (Option Location)} {name : String} :
      BeginsAt (.opened l name) (l :: ls)
  | closed {l : Option Location} {ls : List (Option Location)} {name : String} :
      BeginsAt (.closed l name) (l :: ls)
  | body {l : Option Location} {ls : List (Option Location)} {name : String}
      {statements : List Node} (h : BeginAt statements ls) :
      BeginsAt (.body l name statements) (l :: ls)
  | inside {l : Option Location} {ls ks : List (Option Location)} {name : String}
      {statements : List Node} {s : PartialStatement} (h : BeginAt statements ls)
      (hs : s.BeginsAt ks) : BeginsAt (.inside l name statements s) (l :: (ls ++ ks))

/-- The nodes that have been read of a program begin at places of the tokens taken. -/
def Reader.BeginsAt (r : Reader) (ls : List (Option Location)) : Prop :=
  ∃ ks ms, ls = ks ++ ms ∧ BeginAt (r.functions.map Function.toNode) ks ∧ r.stage.BeginsAt ms

namespace Reader

variable {r r' : Reader} {t : Token} {ls : List (Option Location)}

/-- A function begins at the token that announces it. -/
lemma beginAt_function {name : String} {body : List Node} {l : Option Location}
    (h : BeginAt body ls) : BeginAt [Function.toNode ⟨name, body, l⟩] (l :: ls) :=
  h.above (n := .function name body l) rfl rfl

/-- One token, wherever the reading of a program stands. -/
lemma BeginsAt.step (h : r.BeginsAt ls) (hstep : r.step t = .ok r') :
    r'.BeginsAt (ls ++ [t.location]) := by
  obtain ⟨ks, ms, rfl, hfunctions, hstage⟩ := h
  obtain ⟨functions, stage⟩ := r
  rw [List.append_assoc]
  cases hstage with
  | outside =>
    cases hstep
    exact ⟨ks, _, rfl, hfunctions, .announced⟩
  | announced =>
    simp only [Reader.step] at hstep
    split at hstep <;> cases hstep
    exact ⟨ks, _, rfl, hfunctions, .named⟩
  | named =>
    obtain ⟨-, rfl⟩ := expectMark_eq_ok hstep
    exact ⟨ks, _, rfl, hfunctions, .opened⟩
  | opened =>
    obtain ⟨-, rfl⟩ := expectMark_eq_ok hstep
    exact ⟨ks, _, rfl, hfunctions, .closed⟩
  | closed =>
    obtain ⟨-, rfl⟩ := expectMark_eq_ok hstep
    exact ⟨ks, _, rfl, hfunctions, .body (.empty _)⟩
  | @body l ls name statements h =>
    simp only [Reader.step] at hstep
    split at hstep
    · cases hstep
      refine ⟨ks ++ (l :: (ls ++ [t.location])), [], by simp, ?_, .outside⟩
      rw [List.map_append]
      exact hfunctions.append (beginAt_function (h.concat _))
    · split at hstep
      next s hs =>
        cases hstep
        have hbegun := PartialStatement.beginsAt_of_beginStatement? hs
        exact ⟨ks, _, rfl, hfunctions, .inside h hbegun⟩
      next => cases hstep
  | @inside l ls js name statements s h hs =>
    simp only [Reader.step] at hstep
    split at hstep
    next s' hs' =>
      cases hstep
      refine ⟨ks, l :: (ls ++ (js ++ [t.location])), by simp, hfunctions, ?_⟩
      exact .inside h (hs.step hs')
    next n hn =>
      cases hstep
      refine ⟨ks, l :: (ls ++ (js ++ [t.location])), by simp, hfunctions, ?_⟩
      exact .body (h.append (hs.step hn))
    next => cases hstep

lemma BeginsAt.finish {p : Program} (h : r.BeginsAt ls) (hfinish : r.finish = .ok p) :
    BeginAt (p.functions.map Function.toNode) ls := by
  obtain ⟨ks, ms, rfl, hfunctions, hstage⟩ := h
  obtain ⟨functions, stage⟩ := r
  cases hstage with
  | outside =>
    cases hfinish
    rwa [List.append_nil]
  | body h =>
    cases hfinish
    rw [List.map_append]
    exact hfunctions.append (beginAt_function h)
  | _ => cases hfinish

/-- What is read from some point on begins at places of tokens, those before that point included. -/
lemma BeginsAt.readTokens {p : Program} {tokens : List Token} (h : r.BeginsAt ls)
    (hread : r.readTokens tokens = .ok p) :
    BeginAt (p.functions.map Function.toNode) (ls ++ tokens.map (·.location)) := by
  induction tokens generalizing r ls with
  | nil =>
    rw [List.map_nil, List.append_nil]
    exact h.finish hread
  | cons t ts ih =>
    rw [Reader.readTokens] at hread
    split at hread
    next r' hr' => simpa using ih (h.step hr') hread
    next => cases hread

end Reader

/-- The nodes of a program begin at places of its tokens, in their order. -/
lemma beginAt_of_parse {tokens : List Token} {p : Program} (h : parse tokens = .ok p) :
    BeginAt (p.functions.map Function.toNode) (tokens.map (·.location)) := by
  have hstart : Reader.start.BeginsAt [] := ⟨[], [], rfl, .nil, .outside⟩
  exact hstart.readTokens h

/-- How the nodes of a program, its functions first and the program itself left out, lie in the text
that the tokens were read from. -/
structure Program.IsPlaced (p : Program) (tokens : List Token) : Prop where
  /-- Every node begins where a token stands. -/
  at_token : ∀ n ∈ p.nodes.tail, ∃ l, n.location = some l ∧ ∃ t ∈ tokens, t.location = some l
  /-- In the order of a walk nodes never go back in the text. -/
  forward : p.nodes.tail.Pairwise Node.NotAfter
  /-- Of two nodes that come one after the other, only an operation and its left operand begin at
  the same place. -/
  shared : p.nodes.tail.IsChain fun m n =>
    m.location = n.location → ∃ op right l, m = .binary op n right l

/-- In a program that is read from a text, every node begins where a token stands, nodes follow each
other as their places do, and two that follow each other begin at different places unless they are
an operation and its left operand. -/
theorem isPlaced_of_parseText (file source : String) (p : Program)
    (h : parseText file source = .ok p) :
    ∃ tokens, scan file source = .ok tokens ∧ p.IsPlaced tokens := by
  rw [parseText] at h
  split at h
  next => cases h
  next tokens hscan =>
    obtain ⟨hplaces, hearlier⟩ := (tiles_of_scan hscan).pairwise_earlier
    have hbegin := beginAt_of_parse (eq_ok_of_mapError h)
    obtain ⟨hchain, hmem⟩ := hbegin.isChain (List.pairwise_map.mpr hearlier)
    have hnodes : p.nodes.tail = (p.functions.map Function.toNode).flatMap Node.nodes := by
      rw [Program.nodes, Program.toNode, Node.nodes_program, List.tail_cons]
    rw [← hnodes] at hchain hmem
    have htoken : ∀ n ∈ p.nodes.tail, ∃ l, n.location = some l ∧
        ∃ t ∈ tokens, t.location = some l := by
      intro n hn
      obtain ⟨t, ht, hlocation⟩ := List.mem_map.mp (hmem n hn)
      obtain ⟨u, hu⟩ := hplaces t ht
      exact ⟨_, hlocation.symm.trans hu, t, ht, hu⟩
    refine ⟨tokens, hscan, htoken, ?_, ?_⟩
    · refine List.IsChain.pairwise (hchain.imp_of_mem_imp ?_)
      intro m n hm _ hfollows
      obtain ⟨a, ha, -⟩ := htoken m hm
      exact hfollows.notAfter ha
    · exact hchain.imp fun m n hfollows => hfollows.exists_of_location_eq

/-- The function `fun f(){return(x-y)*z;}`, with a comment and a line break in its head. -/
def productFunction : Function :=
  ⟨"f", [.giveBack (.binary (some .mul)
    (.binary (some .sub) (.symbol "x" (some ⟨"a", 2, 10⟩)) (.symbol "y" (some ⟨"a", 2, 12⟩))
      (some ⟨"a", 2, 10⟩))
    (.symbol "z" (some ⟨"a", 2, 15⟩)) (some ⟨"a", 2, 10⟩)) (some ⟨"a", 2, 3⟩)],
    some ⟨"a", 1, 1⟩⟩

/-- Two operations that begin where their leftmost operand does, behind a parenthesis. -/
theorem isPlaced_of_parseText_product :
    parseText "a" "fun f( //x\n){return(x-y)*z;}" = .ok ⟨[productFunction]⟩ ∧
    (Program.nodes ⟨[productFunction]⟩).tail.map (·.location) =
      [(1, 1), (2, 3), (2, 10), (2, 10), (2, 10), (2, 12), (2, 15)].map
        (fun place => some ⟨"a", place.1, place.2⟩) ∧
    ∃ tokens, scan "a" "fun f( //x\n){return(x-y)*z;}" = .ok tokens ∧
      Program.IsPlaced ⟨[productFunction]⟩ tokens := by
  have hscan : scan "a" "fun f( //x\n){return(x-y)*z;}" =
      .ok [⟨.keyword .kwFun, some ⟨"a", 1, 1⟩⟩, ⟨.identifier "f", some ⟨"a", 1, 5⟩⟩,
        ⟨.mark .openParen, some ⟨"a", 1, 6⟩⟩, ⟨.mark .closeParen, some ⟨"a", 2, 1⟩⟩,
        ⟨.mark .openBrace, some ⟨"a", 2, 2⟩⟩, ⟨.keyword .kwReturn, some ⟨"a", 2, 3⟩⟩,
        ⟨.mark .openParen, some ⟨"a", 2, 9⟩⟩, ⟨.identifier "x", some ⟨"a", 2, 10⟩⟩,
        ⟨.mark .minus, some ⟨"a", 2, 11⟩⟩, ⟨.identifier "y", some ⟨"a", 2, 12⟩⟩,
        ⟨.mark .closeParen, some ⟨"a", 2, 13⟩⟩, ⟨.mark .star, some ⟨"a", 2, 14⟩⟩,
        ⟨.identifier "z", some ⟨"a", 2, 15⟩⟩, ⟨.mark .semicolon, some ⟨"a", 2, 16⟩⟩,
        ⟨.mark .closeBrace, some ⟨"a", 2, 17⟩⟩] := by
    decide +kernel
  have hparse : parseText "a" "fun f( //x\n){return(x-y)*z;}" = .ok ⟨[productFunction]⟩ := by
    rw [parseText, hscan]
    rfl
  exact ⟨hparse, rfl, isPlaced_of_parseText _ _ _ hparse⟩

end TinyCompiler
