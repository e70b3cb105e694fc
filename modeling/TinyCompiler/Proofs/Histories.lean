import TinyCompiler.Proofs.Calls
import TinyCompiler.Proofs.Variables

/-!
# What happens to a builder

A builder is asked for one thing after the other, and what happens is a row of events: what was
asked, with the answer. Only two kinds of calls can fail, and a call that fails changes nothing; nor
does a look at the code. So a history without these events is a history as well
(`Builder.history_filter_leavesTrace`).

Everything that a builder has collected can be read off the events so far (`Builder.collected`), and
with it every answer. That makes statements about all that can happen to a builder statements about
rows of events: nothing that was given out is ever changed, failures are what they should be, and
each look at the code finds all that earlier ones have found (`Builder.consistent_history`).
-/

namespace TinyCompiler

/-- The check of labels fails exactly if a label that code refers to is not bound, and complains
about the first one. -/
lemma Code.checkLabels_cases (c : Code) :
    (c.checkLabels = .ok () ∧ ∀ label ∈ c.instrs.flatMap Instr.labels, label ∈ c.labels.names) ∨
    ∃ before label after, c.instrs.flatMap Instr.labels = before ++ label :: after ∧
      (∀ other ∈ before, other ∈ c.labels.names) ∧ label ∉ c.labels.names ∧
      c.checkLabels = .error (.unresolvedLabel label (Text.similarNames label c.labels.names)) := by
  have hhead : c.unresolvedLabels.head? =
      (c.instrs.flatMap Instr.labels).find? (!c.labels.has ·) := by
    rw [unresolvedLabels, referencedLabels, head?_filter_eraseDups]
  cases hunresolved : c.unresolvedLabels with
  | nil =>
    rw [hunresolved, List.head?_nil, eq_comm, List.find?_eq_none] at hhead
    refine .inl ⟨by rw [checkLabels, hunresolved], fun label hlabel => ?_⟩
    simpa [Table.has_iff] using hhead label hlabel
  | cons label rest =>
    rw [hunresolved, List.head?_cons, eq_comm, List.find?_eq_some_iff_append] at hhead
    obtain ⟨hfree, before, after, hsplit, hbefore⟩ := hhead
    refine .inr ⟨before, label, after, hsplit, fun other hother => ?_, ?_,
      by rw [checkLabels, hunresolved]⟩
    · simpa [Table.has_iff] using hbefore other hother
    · rwa [Bool.not_eq_true', ← Bool.not_eq_true, Table.has_iff] at hfree

namespace Builder

/-! ### Calls and events -/

/-- What a builder can be asked for. -/
inductive Call where
  /-- To add an instruction. -/
  | append (i : Instr)
  /-- To make up a label. -/
  | newLabel
  /-- To bind a label to an index, by default to that of the next instruction. -/
  | bindLabel (name : String) (given : Option Int)
  /-- For the place of a variable. -/
  | slotFor (x : String)
  /-- For the code so far. -/
  | finish
  deriving DecidableEq

/-- What a builder was asked for, and its answer. -/
inductive Event where
  | appended (i : Instr) (index : Nat)
  | minted (label : String)
  | bound (name : String) (given : Option Int) (answer : Except CodeError Int)
  | placed (x : String) (place : Nat)
  | finished (answer : Except CodeError Code)
  deriving DecidableEq

namespace Event

/-- What was asked for. -/
def call : Event → Call
  | .appended i _ => .append i
  | .minted _ => .newLabel
  | .bound name given _ => .bindLabel name given
  | .placed x _ => .slotFor x
  | .finished _ => .finish

/-- Whether an event is neither a failure nor a look at the code. -/
def leavesTrace : Event → Bool
  | .bound _ _ (.error _) | .finished _ => false
  | _ => true

/-- The instruction that was added. -/
def instr? : Event → Option Instr
  | .appended i _ => some i
  | _ => none

/-- The label that was bound, with its index. -/
def binding? : Event → Option (String × Int)
  | .bound name _ (.ok index) => some (name, index)
  | _ => none

/-- The variable that was asked for. -/
def asked? : Event → Option String
  | .placed x _ => some x
  | _ => none

end Event

/-- Does what is asked for. A builder that fails stays as it was. -/
def perform (b : Builder) : Call → Event × Builder
  | .append i => (.appended i b.position, b.append i)
  | .newLabel => (.minted b.newLabel.1, b.newLabel.2)
  | .bindLabel name given =>
    match b.bindLabel name given with
    | .ok (index, b') => (.bound name given (.ok index), b')
    | .error e => (.bound name given (.error e), b)
  | .slotFor x => (.placed x (b.slotFor x).1, (b.slotFor x).2)
  | .finish => (.finished b.finish, b)

/-- What happens when one thing after the other is asked for. -/
def history (b : Builder) : List Call → List Event
  | [] => []
  | call :: calls => (b.perform call).1 :: (b.perform call).2.history calls

/-- The builder when one thing after the other was asked for. -/
def after (b : Builder) (calls : List Call) : Builder :=
  calls.foldl (fun b call => (b.perform call).2) b

variable {b : Builder} {call : Call} {calls : List Call} {reserved : List String}
  {earlier later events : List Event} {e : Event}

lemma perform_bindLabel_of_none {name : String} (h : b.labels.get? name = none)
    (given : Option Int) :
    b.perform (.bindLabel name given) = (.bound name given (.ok (given.getD b.position)),
      { b with labels := b.labels ++ [(name, given.getD b.position)] }) := by
  simp [perform, bindLabel, h]

lemma perform_bindLabel_of_some {name : String} {first : Int} (h : b.labels.get? name = some first)
    (given : Option Int) :
    b.perform (.bindLabel name given) =
      (.bound name given (.error (.duplicateLabel name first)), b) := by
  simp [perform, bindLabel, h]

/-- An event tells what was asked for. -/
lemma call_perform (b : Builder) (call : Call) : (b.perform call).1.call = call := by
  cases call with
  | bindLabel name given =>
    cases h : b.labels.get? name with
    | none => rw [perform_bindLabel_of_none h, Event.call]
    | some first => rw [perform_bindLabel_of_some h, Event.call]
  | _ => rfl

/-- Every call is answered. -/
lemma map_call_history (b : Builder) (calls : List Call) :
    (b.history calls).map Event.call = calls := by
  induction calls generalizing b with
  | nil => rfl
  | cons call calls ih => rw [history, List.map_cons, call_perform, ih]

/-! ### Failures leave no trace -/

/-- What leaves no trace changes nothing. -/
lemma perform_of_leavesTrace_eq_false (h : (b.perform call).1.leavesTrace = false) :
    (b.perform call).2 = b := by
  cases call with
  | bindLabel name given =>
    cases hget : b.labels.get? name with
    | none =>
      rw [perform_bindLabel_of_none hget] at h
      cases h
    | some first => rw [perform_bindLabel_of_some hget]
  | finish => rfl
  | append | newLabel | slotFor => cases h

/-- Without the events that leave no trace, the same happens. -/
lemma history_filter_leavesTrace (b : Builder) (calls : List Call) :
    b.history (((b.history calls).filter Event.leavesTrace).map Event.call) =
      (b.history calls).filter Event.leavesTrace := by
  induction calls generalizing b with
  | nil => rfl
  | cons call calls ih =>
    rw [history]
    cases htrace : (b.perform call).1.leavesTrace with
    | true =>
      rw [List.filter_cons_of_pos htrace, List.map_cons, call_perform, history, ih]
    | false =>
      rw [List.filter_cons_of_neg (by simp [htrace]), perform_of_leavesTrace_eq_false htrace, ih]

/-! ### What events tell about the builder -/

lemma after_append (b : Builder) (calls more : List Call) :
    b.after (calls ++ more) = (b.after calls).after more := List.foldl_append

lemma history_append (b : Builder) (calls more : List Call) :
    b.history (calls ++ more) = b.history calls ++ (b.after calls).history more := by
  induction calls generalizing b with
  | nil => rfl
  | cons call calls ih =>
    rw [List.cons_append, history, history, List.cons_append, ih]
    rfl

/-- Before every event stands the history of what was asked for until then. -/
lemma of_history_eq_append (h : b.history calls = earlier ++ e :: later) :
    b.history (earlier.map Event.call) = earlier ∧
    ((b.after (earlier.map Event.call)).perform e.call).1 = e := by
  have hcalls : calls = earlier.map Event.call ++ e.call :: later.map Event.call := by
    rw [← map_call_history b calls, h, List.map_append, List.map_cons]
  have hlength : (b.history (earlier.map Event.call)).length = earlier.length := by
    rw [← List.length_map (f := Event.call), map_call_history, List.length_map]
  rw [hcalls, history_append] at h
  obtain ⟨hearlier, hrest⟩ := List.append_inj h hlength
  rw [history] at hrest
  exact ⟨hearlier, (List.cons.inj hrest).1⟩

/-- What one call keeps is kept by all calls. -/
lemma holds_after (holds : List Event → Builder → Prop) (hstart : holds [] b)
    (hstep : ∀ events b call, holds events b →
      holds (events ++ [(b.perform call).1]) (b.perform call).2) (calls : List Call) :
    holds (b.history calls) (b.after calls) := by
  induction calls using List.reverseRecOn with
  | nil => exact hstart
  | append_singleton calls call ih =>
    rw [history_append, after_append]
    exact hstep _ _ call ih

/-- The instructions that were added. -/
def appended (events : List Event) : List Instr := events.filterMap Event.instr?

/-- The labels that were bound. -/
def bindings (events : List Event) : Table Int := events.filterMap Event.binding?

/-- The variables that were asked for, as often as they were. -/
def asked (events : List Event) : List String := events.filterMap Event.asked?

/-- What was collected in a row of events. -/
def collected (events : List Event) : Code :=
  ⟨appended events, bindings events, Table.numbering (asked events)⟩

lemma collected_concat (events : List Event) (e : Event) :
    collected (events ++ [e]) = ⟨appended events ++ e.instr?.toList,
      bindings events ++ e.binding?.toList,
      Table.numbering (asked events ++ e.asked?.toList)⟩ := by
  simp only [collected, appended, bindings, asked, List.filterMap_append]
  cases h₁ : e.instr? <;> cases h₂ : e.binding? <;> cases h₃ : e.asked? <;> simp [h₁, h₂, h₃]

/-- The events so far tell what a builder has collected. -/
lemma code_perform (h : b.code = collected events) (call : Call) :
    (b.perform call).2.code = collected (events ++ [(b.perform call).1]) := by
  have hinstrs : b.instrs.toList = appended events := congrArg Code.instrs h
  have hlabels : b.labels = bindings events := congrArg Code.labels h
  have hslots : b.slots = Table.numbering (asked events) := congrArg Code.slots h
  rw [collected_concat, ← hinstrs, ← hlabels]
  cases call with
  | append i => simp [perform, code, Event.instr?, Event.binding?, Event.asked?, hslots]
  | newLabel | finish =>
    simp [perform, newLabel, code, Event.instr?, Event.binding?, Event.asked?, hslots]
  | bindLabel name given =>
    cases hget : b.labels.get? name with
    | none =>
      rw [perform_bindLabel_of_none hget]
      simp [code, Event.instr?, Event.binding?, Event.asked?, hslots]
    | some first =>
      rw [perform_bindLabel_of_some hget]
      simp [code, Event.instr?, Event.binding?, Event.asked?, hslots]
  | slotFor x =>
    simp [perform, code, Event.instr?, Event.binding?, Event.asked?, slots_slotFor hslots]

lemma code_after (reserved : List String) (calls : List Call) :
    ((empty reserved).after calls).code = collected ((empty reserved).history calls) :=
  holds_after (fun events b => b.code = collected events) rfl
    (fun _ _ call hcode => code_perform hcode call) calls

lemma exists_code_of_history (h : (empty reserved).history calls = earlier ++ e :: later) :
    ∃ b : Builder, b.code = collected earlier ∧ (b.perform e.call).1 = e := by
  obtain ⟨hearlier, hevent⟩ := of_history_eq_append h
  refine ⟨_, ?_, hevent⟩
  rw [code_after, hearlier]

/-! ### What events tell about answers -/

/-- A label was bound in one of some events. -/
def Binds (events : List Event) (name : String) : Prop :=
  ∃ given index, .bound name given (.ok index) ∈ events

variable {name : String} {given : Option Int} {x : String} {place : Nat}

lemma Event.binding?_eq_some_iff {index : Int} :
    e.binding? = some (name, index) ↔ ∃ given, e = .bound name given (.ok index) := by
  constructor
  · intro h
    cases e with
    | bound name' given answer =>
      cases answer with
      | ok index' =>
        cases h
        exact ⟨given, rfl⟩
      | error => cases h
    | _ => cases h
  · rintro ⟨given, rfl⟩
    rfl

lemma mem_names_bindings : name ∈ (bindings events).names ↔ Binds events name := by
  simp only [Table.names, bindings, List.mem_map, List.mem_filterMap, Prod.exists, Binds]
  constructor
  · rintro ⟨name, index, ⟨e, he, hbinding⟩, rfl⟩
    obtain ⟨given, rfl⟩ := Event.binding?_eq_some_iff.mp hbinding
    exact ⟨given, index, he⟩
  · rintro ⟨given, index, he⟩
    exact ⟨name, index, ⟨_, he, rfl⟩, rfl⟩

/-- A label is bound unless it was bound before; then its first index is told. -/
lemma bound_of_history {answer : Except CodeError Int}
    (h : (empty reserved).history calls = earlier ++ .bound name given answer :: later) :
    ((bindings earlier).get? name = none ∧
      answer = .ok (given.getD (appended earlier).length)) ∨
    ∃ first, (bindings earlier).get? name = some first ∧
      answer = .error (.duplicateLabel name first) := by
  obtain ⟨b, hcode, hevent⟩ := exists_code_of_history h
  have hlabels : b.labels = bindings earlier := congrArg Code.labels hcode
  have hposition : b.position = (appended earlier).length := by
    rw [← length_instrs_code, hcode]
    rfl
  rw [Event.call] at hevent
  cases hget : b.labels.get? name with
  | none =>
    rw [perform_bindLabel_of_none hget] at hevent
    cases hevent
    exact .inl ⟨hlabels ▸ hget, by rw [hposition]⟩
  | some first =>
    rw [perform_bindLabel_of_some hget] at hevent
    cases hevent
    exact .inr ⟨first, hlabels ▸ hget, rfl⟩

/-- A variable that is asked for has the number of its first occurrence. -/
lemma placed_of_history
    (h : (empty reserved).history calls = earlier ++ .placed x place :: later) :
    (Table.numbering (asked earlier ++ [x])).get? x = some place := by
  obtain ⟨b, hcode, hevent⟩ := exists_code_of_history h
  have hslots : b.slots = Table.numbering (asked earlier) := congrArg Code.slots hcode
  cases hevent
  rw [← slots_slotFor hslots x]
  exact get?_slotFor b x

/-- The code is what was collected, unless an instruction refers to a label that is not bound; then
the first one is told. -/
lemma finished_of_history {answer : Except CodeError Code}
    (h : (empty reserved).history calls = earlier ++ .finished answer :: later) :
    (answer = .ok (collected earlier) ∧
      ∀ label ∈ (appended earlier).flatMap Instr.labels, Binds earlier label) ∨
    ∃ before label after, (appended earlier).flatMap Instr.labels = before ++ label :: after ∧
      (∀ other ∈ before, Binds earlier other) ∧ ¬ Binds earlier label ∧
      answer = .error (.unresolvedLabel label
        (Text.similarNames label (bindings earlier).names)) := by
  obtain ⟨b, hcode, hevent⟩ := exists_code_of_history h
  cases hevent
  simp only [← mem_names_bindings]
  rw [finish, hcode]
  rcases (collected earlier).checkLabels_cases with
    ⟨hcheck, hall⟩ | ⟨before, label, after, hsplit, hbefore, hfree, hcheck⟩
  · rw [hcheck]
    exact .inl ⟨rfl, hall⟩
  · rw [hcheck]
    exact .inr ⟨before, label, after, hsplit, hbefore, hfree, rfl⟩

/-! ### What holds of every history -/

/-- Of two events, the second one comes after the first one and some others. -/
lemma exists_later_of_mem {e' : Event} (h : events = earlier ++ e :: later) (he' : e' ∈ later) :
    ∃ between rest, events = (earlier ++ e :: between) ++ e' :: rest := by
  obtain ⟨between, rest, rfl⟩ := List.append_of_mem he'
  exact ⟨between, rest, by simp [h]⟩

/-- What was collected is never changed. -/
lemma prefix_collected_append (events more : List Event) :
    (collected events).instrs <+: (collected (events ++ more)).instrs ∧
    (collected events).labels <+: (collected (events ++ more)).labels ∧
    (collected events).slots <+: (collected (events ++ more)).slots := by
  simp only [collected, appended, bindings, asked, List.filterMap_append]
  exact ⟨List.prefix_append _ _, List.prefix_append _ _, Table.prefix_numbering_append _ _⟩

/-- A label that was bound stays bound to its index. -/
lemma get?_bindings_of_history {index : Int}
    (h : (empty reserved).history calls = earlier ++ .bound name given (.ok index) :: later)
    (more : List Event) :
    (bindings (earlier ++ .bound name given (.ok index) :: more)).get? name = some index := by
  rcases bound_of_history h with ⟨hfree, -⟩ | ⟨first, -, herror⟩
  · have hbound : bindings (earlier ++ .bound name given (.ok index) :: more) =
        (bindings earlier ++ [(name, index)]) ++ bindings more := by simp [bindings, Event.binding?]
    rw [hbound]
    exact Table.get?_of_prefix (List.prefix_append _ _) (Table.get?_append_singleton hfree index)
  · cases herror

/-- A variable that was asked for keeps its place. -/
lemma get?_numbering_of_history
    (h : (empty reserved).history calls = earlier ++ .placed x place :: later)
    (more : List Event) :
    (Table.numbering (asked (earlier ++ .placed x place :: more))).get? x = some place := by
  have hasked : asked (earlier ++ .placed x place :: more) =
      (asked earlier ++ [x]) ++ asked more := by simp [asked, Event.asked?]
  rw [hasked]
  exact Table.get?_of_prefix (Table.prefix_numbering_append _ _) (placed_of_history h)

/-- Code that was given out is what was collected until then. -/
lemma eq_collected_of_history {c : Code}
    (h : (empty reserved).history calls = earlier ++ .finished (.ok c) :: later) :
    c = collected earlier := by
  rcases finished_of_history h with ⟨hok, -⟩ | ⟨before, label, after, -, -, -, herror⟩
  · exact Except.ok.inj hok
  · cases herror

/-- What holds of a row of calls to a builder and what happens then. -/
structure Consistent (reserved : List String) (calls : List Call) (events : List Event) :
    Prop where
  /-- Every call is answered. -/
  calls_eq : events.map Event.call = calls
  /-- Without the calls that fail and the looks at the code, all others have the same answers. -/
  traceless : (empty reserved).history ((events.filter Event.leavesTrace).map Event.call) =
    events.filter Event.leavesTrace
  /-- A label that is bound stays bound to its index. -/
  label_kept : ∀ earlier name given index later,
    events = earlier ++ .bound name given (.ok index) :: later →
      (∀ given' answer, Event.bound name given' answer ∈ later →
        answer = .error (.duplicateLabel name index)) ∧
      ∀ c, Event.finished (.ok c) ∈ later → c.labels.get? name = some index
  /-- A variable that has a place keeps it. -/
  place_kept : ∀ earlier x place later, events = earlier ++ .placed x place :: later →
    (∀ place', Event.placed x place' ∈ later → place' = place) ∧
    ∀ c, Event.finished (.ok c) ∈ later → c.slots.get? x = some place
  /-- A label cannot be bound exactly if it was bound before. -/
  bound_fails_iff : ∀ earlier name given answer later,
    events = earlier ++ .bound name given answer :: later →
      ((∃ error, answer = .error error) ↔ Binds earlier name)
  /-- There is no code exactly if an instruction refers to a label that is not bound. -/
  finished_fails_iff : ∀ earlier answer later, events = earlier ++ .finished answer :: later →
    ((∃ error, answer = .error error) ↔
      ∃ label ∈ (appended earlier).flatMap Instr.labels, ¬ Binds earlier label)
  /-- The complaint is about the first such label. -/
  finished_error : ∀ earlier error later, events = earlier ++ .finished (.error error) :: later →
    ∃ before label after, (appended earlier).flatMap Instr.labels = before ++ label :: after ∧
      (∀ other ∈ before, Binds earlier other) ∧ ¬ Binds earlier label ∧
      error = .unresolvedLabel label (Text.similarNames label (bindings earlier).names)
  /-- Code has all instructions that were added so far, and later code goes on from it. -/
  finished_grows : ∀ earlier c later, events = earlier ++ .finished (.ok c) :: later →
    c.instrs = appended earlier ∧
    ∀ d, Event.finished (.ok d) ∈ later →
      c.instrs <+: d.instrs ∧ c.labels <+: d.labels ∧ c.slots <+: d.slots

/-- Nothing that was given out is ever changed, and failures are what they should be. -/
theorem consistent_history (reserved : List String) (calls : List Call) :
    Consistent reserved calls ((empty reserved).history calls) where
  calls_eq := map_call_history _ calls
  traceless := history_filter_leavesTrace _ calls
  label_kept earlier name given index later h := by
    have hkept := get?_bindings_of_history h
    constructor
    · intro given' answer hanswer
      obtain ⟨between, rest, h'⟩ := exists_later_of_mem h hanswer
      rcases bound_of_history h' with ⟨hnone, -⟩ | ⟨first, hfirst, rfl⟩
      · rw [hkept between] at hnone
        cases hnone
      · rw [hkept between] at hfirst
        cases hfirst
        rfl
    · intro c hc
      obtain ⟨between, rest, h'⟩ := exists_later_of_mem h hc
      rw [eq_collected_of_history h']
      exact hkept between
  place_kept earlier x place later h := by
    have hkept := get?_numbering_of_history h
    constructor
    · intro place' hplace'
      obtain ⟨between, rest, h'⟩ := exists_later_of_mem h hplace'
      have hagain := Table.get?_of_prefix (Table.prefix_numbering_append _ [x]) (hkept between)
      rw [placed_of_history h'] at hagain
      exact Option.some.inj hagain
    · intro c hc
      obtain ⟨between, rest, h'⟩ := exists_later_of_mem h hc
      rw [eq_collected_of_history h']
      exact hkept between
  bound_fails_iff earlier name given answer later h := by
    rw [← mem_names_bindings, ← Table.has_iff, Table.has_eq_isSome_get?]
    rcases bound_of_history h with ⟨hnone, rfl⟩ | ⟨first, hfirst, rfl⟩
    · simp [hnone]
    · simp [hfirst]
  finished_fails_iff earlier answer later h := by
    rcases finished_of_history h with
      ⟨rfl, hall⟩ | ⟨before, label, after, hsplit, -, hfree, rfl⟩
    · constructor
      · rintro ⟨error, herror⟩
        cases herror
      · rintro ⟨label, hlabel, hfree⟩
        exact absurd (hall label hlabel) hfree
    · rw [hsplit]
      exact iff_of_true ⟨_, rfl⟩ ⟨label, List.mem_append_cons_self, hfree⟩
  finished_error earlier error later h := by
    rcases finished_of_history h with
      ⟨hok, -⟩ | ⟨before, label, after, hsplit, hbefore, hfree, herror⟩
    · cases hok
    · exact ⟨before, label, after, hsplit, hbefore, hfree, Except.error.inj herror⟩
  finished_grows earlier c later h := by
    obtain rfl := eq_collected_of_history h
    refine ⟨rfl, fun d hd => ?_⟩
    obtain ⟨between, rest, h'⟩ := exists_later_of_mem h hd
    rw [eq_collected_of_history h']
    exact prefix_collected_append _ _

example : (empty []).history [.bindLabel "main" none, .append (.jmp (.label "end")), .finish,
      .bindLabel "main" (some 1), .bindLabel "end" none, .finish] =
    [.bound "main" none (.ok 0), .appended (.jmp (.label "end")) 0,
      .finished (.error (.unresolvedLabel "end" [])),
      .bound "main" (some 1) (.error (.duplicateLabel "main" 0)), .bound "end" none (.ok 1),
      .finished (.ok ⟨[.jmp (.label "end")], [("main", 0), ("end", 1)], []⟩)] := by
  decide +kernel

end Builder

end TinyCompiler
