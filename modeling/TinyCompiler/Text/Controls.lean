/-!
# Control sequences

A terminal takes some characters as commands: an escape, an opening bracket, digits, semicolons and
question marks in any number, and a letter. Messages are printed without such sequences. An escape
that begins none stays as it is.
-/

namespace TinyCompiler.Text

/-- Whether a character may stand between the bracket and the letter of a control sequence. -/
def isControlParameter (c : Char) : Bool := c.isDigit || c == ';' || c == '?'

/-- What follows the control sequence that some characters begin with. -/
def afterControl? : List Char → Option (List Char)
  | '\x1b' :: '[' :: cs =>
    match cs.dropWhile isControlParameter with
    | c :: rest => if c.isAlpha then some rest else none
    | [] => none
  | _ => none

theorem length_afterControl?_lt {cs rest : List Char} (h : afterControl? cs = some rest) :
    rest.length < cs.length := by
  unfold afterControl? at h
  split at h
  · next tail =>
    have hdrop := (List.dropWhile_suffix (l := tail) isControlParameter).length_le
    split at h
    · next c rest' hrest =>
      rw [hrest] at hdrop
      split at h
      · cases h
        simp only [List.length_cons] at hdrop ⊢
        omega
      · cases h
    · cases h
  · cases h

/-- Characters without the control sequences among them. -/
def dropControls (cs : List Char) : List Char :=
  match _h : afterControl? cs with
  | some rest => dropControls rest
  | none =>
    match cs with
    | [] => []
    | c :: cs => c :: dropControls cs
termination_by cs.length
decreasing_by
  · exact length_afterControl?_lt _h
  · exact Nat.lt_succ_self _

/-- A text without the control sequences in it. -/
def plain (text : String) : String := String.ofList (dropControls text.toList)

end TinyCompiler.Text
