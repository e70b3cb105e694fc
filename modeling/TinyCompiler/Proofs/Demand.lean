import TinyCompiler.Proofs.Sharing
import TinyCompiler.Proofs.Viability

/-!
# Tokens on demand

A program can be read from a list of tokens, or from a text whose tokens are read as they are
needed. Both take the same steps, so they differ only where the text has a fault: then the tokens
before the fault decide. If one of them is one too many, the complaint about it comes before the
fault is met; otherwise all of them are taken, the next token is asked for, and the fault is what
comes (`parseOnDemand_eq`).
-/

namespace TinyCompiler

namespace Cursor

/-- The tokens that are delivered before the end of the text or the next fault. -/
def leading (c : Cursor) : List Token :=
  match _h : c.next with
  | (some (.token t), d) => t :: d.leading
  | _ => []
termination_by c.rest.length
decreasing_by exact length_next_lt _h

variable {c d : Cursor}

lemma leading_of_next_token {t : Token} (h : c.next = (some (.token t), d)) :
    c.leading = t :: d.leading := by
  rw [leading]
  split
  next t' d' hnext =>
    cases h.symm.trans hnext
    rfl
  next hnext => exact absurd h (hnext t d)

lemma leading_of_next_fault {e : ScanError} (h : c.next = (some (.fault e), d)) :
    c.leading = [] := by
  rw [leading]
  split
  next t d' hnext => cases h.symm.trans hnext
  next => rfl

lemma leading_of_next_none (h : c.next = (none, d)) : c.leading = [] := by
  rw [leading]
  split
  next t d' hnext => cases h.symm.trans hnext
  next => rfl

/-- Where reading on meets no fault, all tokens that it gives are delivered. -/
lemma leading_of_drain {tokens : List Token} (h : c.drain.1 = .ok tokens) :
    c.leading = tokens := by
  fun_induction leading c generalizing tokens with
  | case1 c t d hnext ih =>
    rw [drain_of_next_token hnext] at h
    cases hdrain : d.drain.1 with
    | error e =>
      rw [hdrain] at h
      cases h
    | ok later =>
      rw [hdrain] at h
      cases h
      rw [ih hdrain]
  | case2 c hnot =>
    cases hnext : c.next with | mk reading d =>
    match reading with
    | none =>
      rw [drain_of_next_none hnext] at h
      cases h
      rfl
    | some (.fault e) =>
      rw [drain_of_next_fault hnext] at h
      cases h
    | some (.token t) => exact absurd hnext (hnot t d)

end Cursor

/-- What is said about a text with a fault, given what the tokens before the fault are read as: one
of them may be blamed first. -/
def Failure.beforeFault (program : Except ParseError Program) (e : ScanError) : Failure :=
  match program with
  | .error (.unexpectedToken t expected) => .parse (.unexpectedToken t expected)
  | _ => .scan e

namespace Failure

variable {e : ParseError} {e' : ScanError}

lemma beforeFault_of_blames {t : Token} (h : e.Blames t) :
    beforeFault (.error e) e' = .parse e := by
  cases e with
  | unexpectedToken t' expected => rfl
  | unexpectedEnd expected => cases h

lemma beforeFault_of_isAboutEnd (h : e.IsAboutEnd) : beforeFault (.error e) e' = .scan e' := by
  cases e with
  | unexpectedToken t expected => cases h
  | unexpectedEnd expected => rfl

end Failure

/-- Where no token is left, a fault is met before anything else. -/
lemma Reader.beforeFault_finish (r : Reader) (e : ScanError) :
    Failure.beforeFault r.finish e = .scan e := by
  cases hfinish : r.finish with
  | ok p => rfl
  | error e' => exact Failure.beforeFault_of_isAboutEnd (Reader.isAboutEnd_of_finish hfinish)

/-- Wherever reading stands, it goes on over a text as it does over the tokens of the text, or over
those before the first fault. -/
lemma Reader.readText_eq (r : Reader) (c : Cursor) :
    r.readText c =
      match c.drain.1 with
      | .ok tokens => (r.readTokens tokens).mapError .parse
      | .error e => .error (.beforeFault (r.readTokens c.leading) e) := by
  fun_induction Reader.readText r c with
  | case1 r c d hnext =>
    rw [Cursor.drain_of_next_none hnext]
    rfl
  | case2 r c e d hnext =>
    rw [Cursor.drain_of_next_fault hnext, Cursor.leading_of_next_fault hnext]
    exact congrArg Except.error (r.beforeFault_finish e).symm
  | case3 r c t d hnext r' hstep ih =>
    rw [ih, Cursor.drain_of_next_token hnext, Cursor.leading_of_next_token hnext]
    cases hdrain : d.drain.1 with
    | ok tokens => simp only [Except.map, Reader.readTokens, hstep]
    | error e => simp only [Except.map, Reader.readTokens, hstep]
  | case4 r c t d hnext e hstep =>
    rw [Cursor.drain_of_next_token hnext, Cursor.leading_of_next_token hnext]
    -- the token that is blamed was taken before the fault could be met
    have hblames : e.Blames t := Reader.blames_of_step hstep
    cases hdrain : d.drain.1 with
    | ok tokens =>
      simp only [Except.map, Reader.readTokens, hstep]
      rfl
    | error e' =>
      simp only [Except.map, Reader.readTokens, hstep]
      rw [Failure.beforeFault_of_blames hblames]

/-- Reading a program from a text on demand gives what reading it from the tokens of the text gives.
If the text has a fault, then a complaint about one of the tokens before the fault comes first, and
the fault comes in every other case. -/
theorem parseOnDemand_eq (file source : String) :
    parseOnDemand file source =
      match scan file source with
      | .ok tokens => (parse tokens).mapError .parse
      | .error e => .error (.beforeFault (parse (Cursor.ofText file source).leading) e) :=
  Reader.readText_eq Reader.start (.ofText file source)

-- the tokens before the fault may end there, and still the fault comes
example : (parseOnDemand "a" "fun f()\x7b @").map (·.functions.length) =
    .error (.scan ⟨.strayCharacter '@', some ⟨"a", 1, 10⟩⟩) := by decide +kernel

end TinyCompiler
