import TinyCompiler.Proofs.Tiling

/-!
# Passes that share a text

However many passes are started over a text, and in whatever order they are asked, they share one
cursor. What a text delivers is fixed by the text alone: its words and its faults from left to
right, reading going on right after each of them (`deliveries`). Every step of a pass takes the next
of these that was not taken yet, and the place that is reported is the one after the characters of
what was taken last, or the end of the text once a step has found nothing more to take.

The rules for single steps are those of `Ledger.Serves`, and the main statement is that every row of
steps keeps to them (`serves_history`). It also says that the words before the first fault are the
words of the text that ends where the fault begins.
-/

namespace TinyCompiler

/-! ### What a text delivers -/

/-- A word or a fault of a text, and the text up to its end. -/
structure Delivery where
  reading : Reading
  consumed : List Char

/-- The words and the faults of a text that stands after the text `before`. -/
def deliveries (file : String) (before : List Char) : (text : List Char) → List Delivery
  | [] => []
  | c :: cs =>
    let after := before ++ (Piece.split c cs).1.text
    let later := deliveries file after (Piece.split c cs).2
    match (Piece.split c cs).1 with
    | .gap _ => later
    | .word _ lexeme => ⟨.token ⟨lexeme, some (Location.after file before)⟩, after⟩ :: later
    | .fault _ fault => ⟨.fault ⟨fault, some (Location.after file before)⟩, after⟩ :: later
termination_by text => text.length
decreasing_by exact Piece.split_length c cs

/-- The words and the faults of a whole text. -/
def readings (file source : String) : List Reading :=
  (deliveries file [] source.toList).map (·.reading)

namespace Cursor

variable {file : String} {before text : List Char} {d : Delivery} {ds : List Delivery}

/-- The cursor between two parts of a text. -/
def between (file : String) (consumed rest : List Char) : Cursor :=
  ⟨file, Position.start.after consumed, rest⟩

lemma location_between (consumed rest : List Char) :
    (between file consumed rest).location = Location.after file consumed :=
  Location.ofPosition_after file consumed

lemma past_between (piece : Piece) (consumed rest rest' : List Char) :
    (between file consumed rest).past piece rest' =
      between file (consumed ++ piece.text) rest' := by
  rw [between, past, between, Position.after_append]

/-- Reading delivers nothing where nothing is left to deliver, and passes over the rest. -/
lemma next_of_deliveries_eq_nil (h : deliveries file before text = []) :
    (between file before text).next = (none, between file (before ++ text) []) := by
  fun_induction deliveries file before text with
  | case1 before => rw [List.append_nil, between, next]
  | case2 before c cs after later gap hpiece ih =>
    have hsplit := Piece.split_append c cs
    rw [between, next]
    simp only [hpiece]
    rw [← between, past_between, ← hpiece, ih h, List.append_assoc, hsplit]
  | case3 before c cs after later word lexeme hpiece ih => cases h
  | case4 before c cs after later word fault hpiece ih => cases h

/-- Reading delivers what comes next, after which the rest of the text is left to deliver. -/
lemma next_of_deliveries_eq_cons (h : deliveries file before text = d :: ds) :
    ∃ rest, before ++ text = d.consumed ++ rest ∧ deliveries file d.consumed rest = ds ∧
      (between file before text).next = (some d.reading, between file d.consumed rest) := by
  fun_induction deliveries file before text with
  | case1 before => cases h
  | case2 before c cs after later gap hpiece ih =>
    obtain ⟨rest, htext, hlater, hnext⟩ := ih h
    have hsplit := Piece.split_append c cs
    refine ⟨rest, ?_, hlater, ?_⟩
    · rw [← htext, List.append_assoc, hsplit]
    · rw [between, next]
      simp only [hpiece]
      rw [← between, past_between, ← hpiece]
      exact hnext
  | case3 before c cs after later word content hpiece ih
  | case4 before c cs after later word content hpiece ih =>
    obtain ⟨rfl, rfl⟩ := List.cons.inj h
    have hsplit := Piece.split_append c cs
    refine ⟨(Piece.split c cs).2, ?_, rfl, ?_⟩
    · rw [List.append_assoc, hsplit]
    · rw [between, next]
      simp only [hpiece]
      rw [← between, location_between, past_between, ← hpiece]

/-! ### Reading on -/

variable {c c' : Cursor}

lemma drain_of_next_none (h : c.next = (none, c')) : c.drain = (.ok [], c') := by
  rw [drain]
  split
  next d hnext => rw [(Prod.mk.inj (h.symm.trans hnext)).2]
  next e d hnext => cases h.symm.trans hnext
  next t d hnext => cases h.symm.trans hnext

lemma drain_of_next_fault {e : ScanError} (h : c.next = (some (.fault e), c')) :
    c.drain = (.error e, c') := by
  rw [drain]
  split
  next d hnext => cases h.symm.trans hnext
  next e d hnext =>
    cases h.symm.trans hnext
    rfl
  next t d hnext => cases h.symm.trans hnext

lemma drain_of_next_token {t : Token} (h : c.next = (some (.token t), c')) :
    c.drain = (c'.drain.1.map (t :: ·), c'.drain.2) := by
  rw [drain]
  split
  next d hnext => cases h.symm.trans hnext
  next e d hnext => cases h.symm.trans hnext
  next t d hnext =>
    cases h.symm.trans hnext
    rfl

/-- Reading on takes all tokens that are left, up to the end of the text or up to the next fault,
which is taken as well. -/
lemma drain_of_deliveries (h : deliveries file before text = ds) :
    (∃ tokens : List Token, ds.map (·.reading) = tokens.map .token ∧
      (between file before text).drain = (.ok tokens, between file (before ++ text) [])) ∨
    ∃ (taken later : List Delivery) (tokens : List Token) (e : ScanError)
      (consumed rest : List Char), ds = taken ++ ⟨.fault e, consumed⟩ :: later ∧
      taken.map (·.reading) = tokens.map .token ∧ before ++ text = consumed ++ rest ∧
      deliveries file consumed rest = later ∧
      (between file before text).drain = (.error e, between file consumed rest) := by
  induction ds generalizing before text with
  | nil => exact .inl ⟨[], rfl, drain_of_next_none (next_of_deliveries_eq_nil h)⟩
  | cons d ds ih =>
    obtain ⟨rest, htext, hlater, hnext⟩ := next_of_deliveries_eq_cons h
    obtain ⟨reading, consumed⟩ := d
    cases reading with
    | fault e =>
      exact .inr ⟨[], ds, [], e, consumed, rest, rfl, rfl, htext, hlater,
        drain_of_next_fault hnext⟩
    | token t =>
      have hdrain := drain_of_next_token hnext
      rcases ih hlater with ⟨tokens, htokens, hrest⟩ |
        ⟨taken, later, tokens, e, consumed', rest', rfl, htaken, htext', hlater', hrest⟩
      · refine .inl ⟨t :: tokens, ?_, ?_⟩
        · rw [List.map_cons, List.map_cons, htokens]
        · rw [hdrain, hrest, htext]
          rfl
      · refine .inr ⟨⟨.token t, consumed⟩ :: taken, later, t :: tokens, e, consumed', rest', rfl,
          ?_, htext.trans htext', hlater', ?_⟩
        · rw [List.map_cons, List.map_cons, htaken]
        · rw [hdrain, hrest]
          rfl

end Cursor

namespace Pass

variable {c c' : Cursor}

lemma next_of_token {t : Token} (h : c.next = (some (.token t), c')) :
    (Pass.mk c false).next = (some (.token t), ⟨c', false⟩) := by
  simp only [next, h, Bool.false_eq_true, if_false]

lemma next_of_fault {e : ScanError} (h : c.next = (some (.fault e), c')) :
    (Pass.mk c false).next = (some (.fault e), ⟨c', true⟩) := by
  simp only [next, h, Bool.false_eq_true, if_false]

lemma next_of_none (h : c.next = (none, c')) : (Pass.mk c false).next = (none, ⟨c', true⟩) := by
  simp only [next, h, Bool.false_eq_true, if_false]

end Pass

/-! ### Many passes -/

deriving instance DecidableEq for Passes.Answer, Passes.Event

namespace Passes

lemma step_next (p : Passes) (i : Nat) :
    p.step (.next i) = (.delivered (p.pass i).next.1,
      ⟨(p.pass i).next.2.cursor, p.ended.set i (p.pass i).next.2.ended⟩) := rfl

/-- A pass that stays as it is changes nothing. -/
lemma set_getD_self (ended : List Bool) (i : Nat) : ended.set i (ended.getD i true) = ended := by
  by_cases hi : i < ended.length
  · have hget : ended.getD i true = ended[i] := by simp [hi]
    rw [hget, List.set_getElem_self]
  · exact List.set_eq_of_length_le (Nat.le_of_not_lt hi)

end Passes

/-! ### The rules -/

/-- What is known about passes over a text: what has not been delivered yet, the text that has been
consumed, and which passes have ended. -/
structure Ledger where
  left : List Delivery
  consumed : List Char
  ended : List Bool

namespace Ledger

/-- How a step is answered, and what is known after it. -/
inductive Serves (source : List Char) : Ledger → Passes.Step → Passes.Answer → Ledger → Prop
  /-- A pass that has ended delivers nothing and consumes nothing. -/
  | ended {l : Ledger} {i : Nat} (h : l.ended.getD i true = true) :
      Serves source l (.next i) (.delivered none) l
  /-- A pass that has not ended delivers what was not delivered yet. -/
  | token {l : Ledger} {i : Nat} {t : Token} {consumed : List Char} {left : List Delivery}
      (h : l.ended.getD i true = false) (hleft : l.left = ⟨.token t, consumed⟩ :: left) :
      Serves source l (.next i) (.delivered (some (.token t))) ⟨left, consumed, l.ended⟩
  /-- A pass ends with a fault. -/
  | fault {l : Ledger} {i : Nat} {e : ScanError} {consumed : List Char} {left : List Delivery}
      (h : l.ended.getD i true = false) (hleft : l.left = ⟨.fault e, consumed⟩ :: left) :
      Serves source l (.next i) (.delivered (some (.fault e))) ⟨left, consumed, l.ended.set i true⟩
  /-- A pass ends with the text. -/
  | finished {l : Ledger} {i : Nat} (h : l.ended.getD i true = false) (hleft : l.left = []) :
      Serves source l (.next i) (.delivered none) ⟨[], source, l.ended.set i true⟩
  /-- A new pass has not ended. -/
  | start {l : Ledger} : Serves source l .start .started ⟨l.left, l.consumed, l.ended ++ [false]⟩
  /-- All tokens up to the next fault are taken, and the fault with them. -/
  | drainedToFault {l : Ledger} {taken left : List Delivery} {tokens : List Token} {e : ScanError}
      {consumed : List Char} (hleft : l.left = taken ++ ⟨.fault e, consumed⟩ :: left)
      (htaken : taken.map (·.reading) = tokens.map .token) :
      Serves source l .drain (.drained (.error e)) ⟨left, consumed, l.ended⟩
  /-- All tokens up to the end of the text are taken. -/
  | drained {l : Ledger} {tokens : List Token}
      (hleft : l.left.map (·.reading) = tokens.map .token) :
      Serves source l .drain (.drained (.ok tokens)) ⟨[], source, l.ended⟩

/-- All of a history keeps to the rules, and the place that is reported after each step is that of
the text consumed so far. -/
inductive ServesAll (file : String) (source : List Char) : Ledger → List Passes.Event → Prop
  | nil {l : Ledger} : ServesAll file source l []
  | cons {l l' : Ledger} {s : Passes.Step} {a : Passes.Answer} {events : List Passes.Event}
      (hstep : Serves source l s a l') (hrest : ServesAll file source l' events) :
      ServesAll file source l (⟨s, a, Location.after file l'.consumed⟩ :: events)

/-- A ledger from which nothing has been taken. -/
def ofText (file source : String) : Ledger := ⟨deliveries file [] source.toList, [], []⟩

/-- Passes are as the ledger says: the cursor stands after the text that was consumed, and what is
left to deliver is what the rest of the text delivers. -/
structure Records (file : String) (source : List Char) (l : Ledger) (p : Passes) : Prop where
  ended : p.ended = l.ended
  cursor : ∃ rest, source = l.consumed ++ rest ∧ deliveries file l.consumed rest = l.left ∧
    p.cursor = Cursor.between file l.consumed rest

variable {file : String} {source : List Char} {l : Ledger} {p : Passes}

lemma records_ofText (file source : String) :
    Records file source.toList (ofText file source) (.ofText file source) :=
  ⟨rfl, source.toList, rfl, rfl, rfl⟩

lemma Records.location (h : Records file source l p) :
    p.cursor.location = Location.after file l.consumed := by
  obtain ⟨-, rest, -, -, hcursor⟩ := h
  rw [hcursor, Cursor.location_between]

/-- A pass that is asked for what comes next is answered by the rules. -/
lemma Records.next (h : Records file source l p) (i : Nat) :
    ∃ l', Serves source l (.next i) (p.step (.next i)).1 l' ∧
      Records file source l' (p.step (.next i)).2 := by
  obtain ⟨hended, rest, hsource, hleft, hcursor⟩ := h
  have hsame : l.ended.set i (l.ended.getD i true) = l.ended := Passes.set_getD_self l.ended i
  have hpass : p.pass i = ⟨Cursor.between file l.consumed rest, l.ended.getD i true⟩ := by
    rw [Passes.pass, hcursor, hended]
  rw [Passes.step_next, hpass, hended]
  cases hi : l.ended.getD i true with
  | true =>
    rw [hi] at hsame
    exact ⟨l, .ended hi, hsame, rest, hsource, hleft, rfl⟩
  | false =>
    rw [hi] at hsame
    cases hl : l.left with
    | nil =>
      rw [hl] at hleft
      rw [Pass.next_of_none (Cursor.next_of_deliveries_eq_nil hleft), ← hsource]
      exact ⟨_, .finished hi hl, rfl, [], by simp, by rw [deliveries], rfl⟩
    | cons d ds =>
      rw [hl] at hleft
      obtain ⟨rest', htext, hlater, hnext⟩ := Cursor.next_of_deliveries_eq_cons hleft
      obtain ⟨reading, consumed⟩ := d
      cases reading with
      | token t =>
        rw [Pass.next_of_token hnext]
        exact ⟨_, .token hi hl, hsame, rest', hsource.trans htext, hlater, rfl⟩
      | fault e =>
        rw [Pass.next_of_fault hnext]
        exact ⟨_, .fault hi hl, rfl, rest', hsource.trans htext, hlater, rfl⟩

/-- Reading on is answered by the rules. -/
lemma Records.drain (h : Records file source l p) :
    ∃ l', Serves source l .drain (p.step .drain).1 l' ∧
      Records file source l' (p.step .drain).2 := by
  obtain ⟨hended, rest, hsource, hleft, hcursor⟩ := h
  have hstep : p.step .drain = (.drained p.cursor.drain.1, ⟨p.cursor.drain.2, p.ended⟩) := rfl
  rw [hstep, hcursor]
  rcases Cursor.drain_of_deliveries hleft with ⟨tokens, htokens, hdrain⟩ |
    ⟨taken, later, tokens, e, consumed, rest', htaken, htokens, htext, hlater, hdrain⟩
  · rw [hdrain, ← hsource]
    refine ⟨_, .drained htokens, hended, [], by simp, ?_, rfl⟩
    rw [deliveries]
  · rw [hdrain]
    exact ⟨_, .drainedToFault htaken htokens, hended, rest', hsource.trans htext, hlater, rfl⟩

/-- Every step keeps to the rules. -/
lemma Records.step (h : Records file source l p) (s : Passes.Step) :
    ∃ l', Serves source l s (p.step s).1 l' ∧ Records file source l' (p.step s).2 := by
  cases s with
  | next i => exact h.next i
  | start =>
    refine ⟨_, .start, ?_, h.cursor⟩
    rw [← h.ended]
    rfl
  | drain => exact h.drain

/-- Every row of steps keeps to the rules. -/
lemma Records.servesAll (h : Records file source l p) (steps : List Passes.Step) :
    ServesAll file source l (p.history steps) := by
  induction steps generalizing l p with
  | nil => exact .nil
  | cons s steps ih =>
    obtain ⟨l', hserves, hrecords⟩ := h.step s
    rw [Passes.history, hrecords.location]
    exact .cons hserves (ih hrecords)

end Ledger

/-! ### The text before a fault -/

/-- A tiling does not depend on the text after it: to cut a text after a lexeme changes no lexeme
before, and it opens no comment. -/
lemma Tiles.cut {file : String} {before text after : List Char} {tokens : List Token}
    (h : Tiles file before text after tokens) : Tiles file before text [] tokens := by
  induction h with
  | nil => exact .nil
  | gap hgap hrest ih => exact .gap hgap ih
  | @lexeme before word text after lexeme tokens hword hrest ih =>
    refine .lexeme (hword.of_head? fun c hc => ?_) ih
    cases text with
    | nil => cases hc
    | cons d text => exact .inl hc

variable {file : String} {before text : List Char}

/-- The words before the first fault tile the text up to the place where the fault begins. -/
lemma exists_tiles_of_deliveries {e : ScanError} {later : List Reading} (tokens : List Token)
    (h : (deliveries file before text).map (·.reading) = tokens.map .token ++ .fault e :: later) :
    ∃ u v, text = u ++ v ∧ e.location = some (Location.after file (before ++ u)) ∧
      Tiles file before u v tokens := by
  fun_induction deliveries file before text generalizing tokens with
  | case1 before => cases tokens <;> cases h
  | case2 before c cs after _ gap hpiece ih =>
    obtain ⟨u, v, htext, hlocation, htiles⟩ := ih tokens h
    have hsplit : Piece.split c cs = (.gap gap, u ++ v) := Prod.ext hpiece htext
    have hcs := Piece.split_append c cs
    rw [hsplit] at hcs
    refine ⟨gap ++ u, v, ?_, ?_, ?_⟩
    · rw [← hcs, Piece.text, List.append_assoc]
    · rw [hlocation, ← List.append_assoc]
      simp [after, hpiece, Piece.text]
    · refine .gap (Piece.isGap_of_split hsplit) ?_
      simpa [after, hpiece, Piece.text] using htiles
  | case3 before c cs after _ word lexeme hpiece ih =>
    cases tokens with
    | nil => cases h
    | cons t tokens =>
      obtain ⟨ht, hrest⟩ := List.cons.inj h
      obtain rfl := Reading.token.inj ht
      obtain ⟨u, v, htext, hlocation, htiles⟩ := ih tokens hrest
      have hsplit : Piece.split c cs = (.word word lexeme, u ++ v) := Prod.ext hpiece htext
      have hcs := Piece.split_append c cs
      rw [hsplit] at hcs
      refine ⟨word ++ u, v, ?_, ?_, ?_⟩
      · rw [← hcs, Piece.text, List.append_assoc]
      · rw [hlocation, ← List.append_assoc]
        simp [after, hpiece, Piece.text]
      · refine .lexeme (Piece.isLexeme_of_split hsplit) ?_
        simpa [after, hpiece, Piece.text] using htiles
  | case4 before c cs after _ word fault hpiece ih =>
    cases tokens with
    | nil =>
      obtain ⟨he, -⟩ := List.cons.inj h
      obtain rfl := Reading.fault.inj he
      exact ⟨[], c :: cs, rfl, by rw [List.append_nil], .nil⟩
    | cons t tokens => cases h

/-- What is delivered ends somewhere in the text. -/
lemma consumed_prefix_of_mem_deliveries {d : Delivery} (h : d ∈ deliveries file before text) :
    d.consumed <+: before ++ text := by
  fun_induction deliveries file before text with
  | case1 before => cases h
  | case2 before c cs after later gap hpiece ih =>
    have hsplit := Piece.split_append c cs
    rw [← hsplit, ← List.append_assoc]
    exact ih h
  | case3 before c cs after later word content hpiece ih
  | case4 before c cs after later word content hpiece ih =>
    have hsplit := Piece.split_append c cs
    rw [← hsplit, ← List.append_assoc]
    rcases List.mem_cons.mp h with rfl | hlater
    · exact List.prefix_append _ _
    · exact ih hlater

/-- Passes over a text share its cursor, however they are driven: every row of steps keeps to the
rules of `Ledger.Serves`, which know the words and faults of the text, how far it has been consumed
and which passes have ended, and nothing else. The words before the first fault are those of the
text before the place where the fault begins. -/
theorem serves_history (file source : String) :
    (∀ steps, Ledger.ServesAll file source.toList (.ofText file source)
      ((Passes.ofText file source).history steps)) ∧
    (∀ d ∈ deliveries file [] source.toList, d.consumed <+: source.toList) ∧
    ∀ tokens e later, readings file source = tokens.map .token ++ .fault e :: later →
      ∃ before after : String, source = before ++ after ∧
        e.location = some (Location.after file before.toList) ∧ scan file before = .ok tokens := by
  refine ⟨(Ledger.records_ofText file source).servesAll,
    fun d hd => consumed_prefix_of_mem_deliveries hd, fun tokens e later h => ?_⟩
  obtain ⟨u, v, htext, hlocation, htiles⟩ := exists_tiles_of_deliveries tokens h
  refine ⟨String.ofList u, String.ofList v, ?_, ?_, Tiles.scan ?_⟩
  · rw [← String.toList_inj, htext]
    simp
  · simpa using hlocation
  · simpa using htiles.cut

/-- A text with a fault after two words: the words are those of the text before the fault. -/
theorem serves_history_strayCharacter :
    readings "a" "7/@ b" =
      [⟨.number (.ofNat 7), some ⟨"a", 1, 1⟩⟩, ⟨.mark .slash, some ⟨"a", 1, 2⟩⟩].map .token ++
        .fault ⟨.strayCharacter '@', some ⟨"a", 1, 3⟩⟩ ::
          [.token ⟨.identifier "b", some ⟨"a", 1, 5⟩⟩] ∧
    ∃ before after : String, "7/@ b" = before ++ after ∧
      some (⟨"a", 1, 3⟩ : Location) = some (Location.after "a" before.toList) ∧
      scan "a" before =
        .ok [⟨.number (.ofNat 7), some ⟨"a", 1, 1⟩⟩, ⟨.mark .slash, some ⟨"a", 1, 2⟩⟩] := by
  have hreadings : readings "a" "7/@ b" =
      [⟨.number (.ofNat 7), some ⟨"a", 1, 1⟩⟩, ⟨.mark .slash, some ⟨"a", 1, 2⟩⟩].map .token ++
        .fault ⟨.strayCharacter '@', some ⟨"a", 1, 3⟩⟩ ::
          [.token ⟨.identifier "b", some ⟨"a", 1, 5⟩⟩] := by decide +kernel
  exact ⟨hreadings, (serves_history "a" "7/@ b").2.2 _ _ _ hreadings⟩

-- of two passes, one ends at the fault; the other goes on after it, and so does reading on
example : (Passes.ofText "a" "7@ b").history [.start, .start, .next 1, .next 0, .next 0, .drain,
      .next 1] =
    [⟨.start, .started, ⟨"a", 1, 1⟩⟩, ⟨.start, .started, ⟨"a", 1, 1⟩⟩,
      ⟨.next 1, .delivered (some (.token ⟨.number (.ofNat 7), some ⟨"a", 1, 1⟩⟩)), ⟨"a", 1, 2⟩⟩,
      ⟨.next 0, .delivered (some (.fault ⟨.strayCharacter '@', some ⟨"a", 1, 2⟩⟩)), ⟨"a", 1, 3⟩⟩,
      ⟨.next 0, .delivered none, ⟨"a", 1, 3⟩⟩,
      ⟨.drain, .drained (.ok [⟨.identifier "b", some ⟨"a", 1, 4⟩⟩]), ⟨"a", 1, 5⟩⟩,
      ⟨.next 1, .delivered none, ⟨"a", 1, 5⟩⟩] := by decide +kernel

end TinyCompiler
