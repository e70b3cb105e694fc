import TinyCompiler.CommandLine.Run
import TinyCompiler.Proofs.Extension

/-!
# What the modes of the command have in common

The command has four modes, each with its own row of stages, but the rows are the beginnings of one
row: what stops a mode stops every mode that goes further, with the same failure
(`Mode.StopsWith`). The last stage, which prints the listing, stops nothing, because the code of
what was read from a text can always be printed. So the answers to a failure are the same
(`modes_agree`), and they are clean: nothing is printed but the complaint, and no file is written
(`isClean_runWith`). How the arguments are written that ask for a mode plays no part in this.
-/

namespace TinyCompiler.CommandLine

/-! ### Failures of stages -/

section Failures

variable {ε α β : Type} {e : ε} {x : Except ε α}

lemma map_eq_error_iff {f : α → β} : x.map f = .error e ↔ x = .error e := by
  cases x <;> simp [Except.map]

lemma bind_of_eq_error {f : α → Except ε β} (h : x = .error e) : x >>= f = .error e := by
  rw [h]
  rfl

/-- A failure of two parts is one of the first part, unless the second part fails. -/
lemma eq_error_of_bind {f : α → Except ε β} (h : x >>= f = .error e)
    (hf : ∀ a, x = .ok a → ∃ b, f a = .ok b) : x = .error e := by
  cases x with
  | error e' => exact congrArg Except.error (Except.error.inj h)
  | ok a =>
    obtain ⟨b, hb⟩ := hf a rfl
    have hok : f a = .error e := h
    rw [hb] at hok
    cases hok

end Failures

namespace Noted

variable {α β : Type}

@[simp] lemma result_silent (r : Except Failure α) : (silent r).result = r := rfl

@[simp] lemma result_noting (r : Except Failure α) (note : α → String) :
    (noting r note).result = r := by
  cases r <;> rfl

@[simp] lemma result_andThen (n : Noted α) (next : α → Noted β) :
    (n.andThen next).result = n.result >>= fun a => (next a).result := by
  rw [andThen]
  cases n.result <;> rfl

@[simp] lemma result_map (f : α → β) (n : Noted α) : (n.map f).result = n.result.map f := rfl

end Noted

/-! ### Modes go further than others -/

namespace Mode

/-- Whatever stops one mode stops the other one with the same failure. -/
def StopsWith (mode mode' : Mode) : Prop :=
  ∀ (file source : String) (e : Failure), (mode.produce file source).result = .error e →
    (mode'.produce file source).result = .error e

lemma StopsWith.refl (mode : Mode) : StopsWith mode mode := fun _ _ _ he => he

lemma StopsWith.trans {mode mode' mode'' : Mode} (h : StopsWith mode mode')
    (h' : StopsWith mode' mode'') : StopsWith mode mode'' :=
  fun file source e he => h' file source e (h file source e he)

/-- What has no tokens has no tree. -/
lemma stopsWith_tokens_outline : StopsWith .tokens .outline := by
  intro file source e h
  simp only [produce, tokenListOf, outlineOf, Noted.result_silent, Noted.result_map,
    Noted.result_andThen, map_eq_error_iff] at h ⊢
  exact bind_of_eq_error h

/-- What has no tree has no code. -/
lemma stopsWith_outline_dump : StopsWith .outline .dump := by
  intro file source e h
  simp only [produce, outlineOf, dumpOf, Noted.result_silent, Noted.result_map,
    Noted.result_andThen, map_eq_error_iff] at h ⊢
  exact bind_of_eq_error h

/-- What has no code has no listing. -/
lemma stopsWith_dump_listing : StopsWith .dump .listing := by
  intro file source e h
  simp only [produce, dumpOf, listingOf, Noted.result_silent, Noted.result_noting,
    Noted.result_map, Noted.result_andThen, map_eq_error_iff] at h ⊢
  exact bind_of_eq_error h

/-- Only what has no code has no listing: the code of what was read can be printed. -/
lemma stopsWith_listing_dump : StopsWith .listing .dump := by
  intro file source e h
  simp only [produce, dumpOf, listingOf, Noted.result_silent, Noted.result_noting,
    Noted.result_map, Noted.result_andThen, map_eq_error_iff] at h ⊢
  refine eq_error_of_bind h fun c hc => ?_
  obtain ⟨p, hp, hc⟩ := bind_eq_ok_iff.mp hc
  obtain ⟨tokens, htokens, hp⟩ := bind_eq_ok_iff.mp hp
  rw [programOf, Noted.result_noting] at hp
  rw [codeOf, Noted.result_noting] at hc
  have hsensible := isSensible_of_parse (eq_ok_of_mapError hp)
    (ne_nan_of_scan (eq_ok_of_mapError htokens))
  exact exists_render rfl hsensible (eq_ok_of_mapError hc)

/-- Tokens come before everything else. -/
lemma stopsWith_tokens (mode : Mode) : StopsWith .tokens mode := by
  have hdump := stopsWith_tokens_outline.trans stopsWith_outline_dump
  cases mode with
  | tokens => exact .refl _
  | outline => exact stopsWith_tokens_outline
  | dump => exact hdump
  | listing => exact hdump.trans stopsWith_dump_listing

/-- What a mode makes of the file of a path, or why it fails. -/
def attempt (mode : Mode) (look : String → Entry) (path : String) : Except Failure String := do
  let source ← readSource look path
  (mode.produce path source).result

/-- A file that cannot be read stops all modes alike. -/
lemma StopsWith.attempt_eq {mode mode' : Mode} {look : String → Entry} {path : String}
    {e : Failure} (h : StopsWith mode mode') (he : mode.attempt look path = .error e) :
    mode'.attempt look path = .error e := by
  rw [attempt] at he ⊢
  cases hsource : readSource look path with
  | error e' =>
    rw [hsource] at he
    exact he
  | ok source =>
    rw [hsource] at he
    exact h path source e he

end Mode

/-! ### Runs -/

section Runs

variable {reader : ArgumentReader} {look : String → Entry} {arguments : List String} {mode : Mode}
  {path : String} {output : Option String} {e : Failure}

lemma runWith_of_attempt_error (h : reader look arguments = .ok ⟨mode, false, path, output⟩)
    (he : mode.attempt look path = .error e) : runWith reader look arguments = failed "" e := by
  rw [runWith, h]
  simp only [Job.run]
  rw [Mode.attempt] at he
  cases hsource : readSource look path with
  | error e' =>
    rw [hsource] at he
    obtain rfl : e' = e := Except.error.inj he
    rfl
  | ok source =>
    rw [hsource] at he
    have hresult : (mode.produce path source).result = .error e := he
    simp only [hresult, noteLines, Bool.false_eq_true, if_false]

/-- Only what stops a mode makes a run fail. -/
lemma exists_attempt_error (h : reader look arguments = .ok ⟨mode, false, path, output⟩)
    (houtput : ∀ out ∈ output, (look out).checkWritable out = .ok ())
    (hne : (runWith reader look arguments).exitCode ≠ 0) :
    ∃ e, mode.attempt look path = .error e := by
  cases hattempt : mode.attempt look path with
  | error e => exact ⟨e, rfl⟩
  | ok text =>
    refine absurd ?_ hne
    obtain ⟨source, hsource, hresult⟩ := bind_eq_ok_iff.mp hattempt
    rw [runWith, h]
    simp only [Job.run, hsource, hresult]
    split
    next hresult' => cases hresult'
    next out _ => rw [Job.writeListing, houtput out rfl]
    next => rfl

end Runs

/-! ### Clean failures -/

/-- If a run fails, it prints nothing but complaints, and it writes no file. -/
def Answer.IsClean (a : Answer) : Prop := a.exitCode ≠ 0 → a.stdout = "" ∧ a.output = none

lemma isClean_failed (notes : String) (e : Failure) : (failed notes e).IsClean :=
  fun _ => ⟨rfl, rfl⟩

lemma Answer.isClean_of_exitCode {a : Answer} (h : a.exitCode = 0) : a.IsClean :=
  fun hne => absurd h hne

lemma Reply.isClean_answer (reply : Reply) : reply.answer.IsClean := by
  cases reply with
  | shown text => exact Answer.isClean_of_exitCode rfl
  | refused exitCode complaint => exact fun _ => ⟨rfl, rfl⟩

lemma Job.isClean_run (job : Job) (look : String → Entry) : (job.run look).IsClean := by
  rw [Job.run]
  split
  · exact isClean_failed _ _
  · dsimp only
    split
    · exact isClean_failed _ _
    · rw [writeListing]
      split
      · exact isClean_failed _ _
      · exact Answer.isClean_of_exitCode rfl
    · exact Answer.isClean_of_exitCode rfl

/-- Whatever the arguments are, and whatever reads them, a failure is clean. -/
lemma isClean_runWith (reader : ArgumentReader) (look : String → Entry)
    (arguments : List String) : (runWith reader look arguments).IsClean := by
  rw [runWith]
  split
  · exact Reply.isClean_answer _
  · exact Job.isClean_run _ _

/-! ### Modes -/

/-- The modes of the command agree on what fails, whatever reads its arguments. If the arguments are
read as asking for one file in every mode, and whatever the runs write can be written, then a run
that fails to show the tokens of the file has the answer of all runs; one that fails to show its tree
has the answer of the runs that show or print its code; and the latter fail together, with one
answer. A run that fails, with whatever arguments, prints nothing but its complaint and writes no
file. -/
theorem modes_agree (reader : ArgumentReader) (look : String → Entry) (path : String)
    (command : Mode → List String) (output : Mode → Option String)
    (hasks : ∀ mode, reader look (command mode) = .ok ⟨mode, false, path, output mode⟩)
    (houtput : ∀ mode, ∀ out ∈ output mode, (look out).checkWritable out = .ok ()) :
    let answer (mode : Mode) := runWith reader look (command mode)
    ((answer .tokens).exitCode ≠ 0 → ∀ mode, answer mode = answer .tokens) ∧
    ((answer .outline).exitCode ≠ 0 →
      answer .dump = answer .outline ∧ answer .listing = answer .outline) ∧
    ((answer .dump).exitCode ≠ 0 ↔ (answer .listing).exitCode ≠ 0) ∧
    ((answer .dump).exitCode ≠ 0 → answer .listing = answer .dump) ∧
    ∀ arguments, (runWith reader look arguments).exitCode ≠ 0 →
      (runWith reader look arguments).stdout = "" ∧
        (runWith reader look arguments).output = none := by
  intro answer
  -- a run that fails has stopped at some stage, and so has every run that goes further
  have hlike : ∀ {mode mode' : Mode}, mode.StopsWith mode' → (answer mode).exitCode ≠ 0 →
      answer mode' = answer mode := by
    intro mode mode' hstops hne
    obtain ⟨e, he⟩ := exists_attempt_error (hasks mode) (houtput mode) hne
    have hanswer := runWith_of_attempt_error (hasks mode) he
    exact (runWith_of_attempt_error (hasks mode') (hstops.attempt_eq he)).trans hanswer.symm
  refine ⟨fun hne mode => hlike (Mode.stopsWith_tokens mode) hne, fun hne => ?_, ?_,
    hlike Mode.stopsWith_dump_listing, isClean_runWith reader look⟩
  · exact ⟨hlike Mode.stopsWith_outline_dump hne,
      hlike (Mode.stopsWith_outline_dump.trans Mode.stopsWith_dump_listing) hne⟩
  · constructor
    · intro hne
      rwa [hlike Mode.stopsWith_dump_listing hne]
    · intro hne
      rwa [hlike Mode.stopsWith_listing_dump hne]

/-! ### Options -/

/-- Arguments ask for a file to be shown in a mode, perhaps with a file for the output, and for no
notes. -/
def Asks (arguments : List String) (mode : Mode) (path : String) (output : Option String) : Prop :=
  ∃ r, Request.empty.read arguments = .ok r ∧ r.urgent? = none ∧ r.has .verbose = false ∧
    r.mode = mode ∧ r.files = [path] ∧ r.output = output

/-- Where a file can be written, there is one already or nothing yet. -/
lemma cases_of_checkWritable {entry : Entry} {path : String}
    (h : entry.checkWritable path = .ok ()) : (∃ bytes, entry = .file bytes) ∨ entry = .vacant := by
  cases entry with
  | file bytes => exact .inl ⟨bytes, rfl⟩
  | vacant => exact .inr rfl
  | directory | noDirectory | throughFile | tooLong | noPath => cases h

/-- What options ask for is the job that is found in them, if the input is there and the output can
be written. -/
lemma readOptions_of_asks {look : String → Entry} {arguments : List String} {mode : Mode}
    {path : String} {output : Option String} {bytes : List UInt8}
    (h : Asks arguments mode path output) (hinput : look path = .file bytes)
    (houtput : ∀ out ∈ output, (look out).checkWritable out = .ok ()) :
    readOptions look arguments =
      .ok ⟨mode, false, Path.normal path, output.map Path.normal⟩ := by
  obtain ⟨r, hread, hurgent, hquiet, rfl, hfiles, rfl⟩ := h
  have hjob : r.job look = .ok ⟨r.mode, false, Path.normal path, r.output.map Path.normal⟩ := by
    rw [Request.job, hfiles]
    cases hout : r.output with
    | none =>
      simp only [hinput, hquiet]
      rfl
    | some out =>
      rcases cases_of_checkWritable (houtput out hout) with ⟨bytes', hentry⟩ | hentry
      · simp only [hinput, hquiet, hentry]
        rfl
      · simp only [hinput, hquiet, hentry]
        rfl
  rw [readOptions, hread]
  simp only [hurgent, hjob]
  rfl

/-- The only file here is `a`, which has one opening parenthesis in it. -/
def lookParenthesis (path : String) : Entry := if path = "a" then .file [0x28] else .vacant

/-- The arguments that show `a` in a mode; the listing is to be written to `b`. -/
def Mode.arguments : Mode → List String
  | .tokens => ["--tokens", "a"]
  | .outline => ["--ast", "a"]
  | .dump => ["--blob", "a"]
  | .listing => ["a", "-o", "b"]

/-- The file that they are to write. -/
def Mode.written : Mode → Option String
  | .listing => some "b"
  | _ => none

/-- There are tokens but no tree. -/
theorem modes_agree_parenthesis :
    (run lookParenthesis ["--tokens", "a"]).exitCode = 0 ∧
      (run lookParenthesis ["--ast", "a"]).exitCode = 1 ∧
      run lookParenthesis ["a", "-o", "b"] = run lookParenthesis ["--ast", "a"] := by
  have hasks : ∀ mode : Mode, Asks mode.arguments mode "a" mode.written := by
    intro mode
    cases mode with
    | tokens => exact ⟨⟨[.tokens], none, ["a"]⟩, by decide +kernel⟩
    | outline => exact ⟨⟨[.outline], none, ["a"]⟩, by decide +kernel⟩
    | dump => exact ⟨⟨[.dump], none, ["a"]⟩, by decide +kernel⟩
    | listing => exact ⟨⟨[.output], some "b", ["a"]⟩, by decide +kernel⟩
  have houtput : ∀ mode : Mode, ∀ out ∈ mode.written,
      (lookParenthesis out).checkWritable out = .ok () := by
    intro mode out hout
    cases mode <;> cases hout
    rfl
  have hjob : ∀ mode : Mode,
      readOptions lookParenthesis mode.arguments = .ok ⟨mode, false, "a", mode.written⟩ := by
    intro mode
    have hread := readOptions_of_asks (hasks mode) rfl (houtput mode)
    have hnormal : Path.normal "a" = "a" ∧ mode.written.map Path.normal = mode.written := by
      cases mode <;> decide +kernel
    rwa [hnormal.1, hnormal.2] at hread
  have hfailed : (run lookParenthesis ["--ast", "a"]).exitCode = 1 := by decide +kernel
  obtain ⟨-, houtline, -⟩ := modes_agree readOptions lookParenthesis "a" Mode.arguments
    Mode.written hjob houtput
  refine ⟨by decide +kernel, hfailed, (houtline ?_).2⟩
  show (run lookParenthesis ["--ast", "a"]).exitCode ≠ 0
  rw [hfailed]
  decide

end TinyCompiler.CommandLine
