import TinyCompiler.Proofs.Sharing

/-!
# Texts line by line

A line feed cuts a text: no word, no fault and no comment goes on after it. So the pieces of a text
that ends with a line feed stay as they are whatever is written below it
(`Piece.split_append_below`), and what is written below delivers what it would deliver alone, only
at places that are so many lines further down (`readings_append_newline`). What a text as a whole is
read as follows from that: all its tokens, or its first fault (`scan_append_newline`).
-/

namespace TinyCompiler

/-! ### Places further down -/

/-- The place in the same column, so many lines further down. -/
def Location.below (lines : Nat) (l : Location) : Location := { l with line := l.line + lines }

/-- A token so many lines further down. -/
def Token.below (lines : Nat) (t : Token) : Token :=
  { t with location := t.location.map (·.below lines) }

/-- A fault so many lines further down. -/
def ScanError.below (lines : Nat) (e : ScanError) : ScanError :=
  { e with location := e.location.map (·.below lines) }

/-- What is delivered so many lines further down. -/
def Reading.below (lines : Nat) : Reading → Reading
  | .token t => .token (t.below lines)
  | .fault e => .fault (e.below lines)

/-- A text that is empty or ends with a line feed, so that what follows it begins a line. -/
def EndsLine (text : List Char) : Prop := ∀ c ∈ text.getLast?, c = '\n'

lemma endsLine_concat (text : List Char) : EndsLine (text ++ ['\n']) := by
  intro c hc
  rw [List.getLast?_concat] at hc
  exact (Option.some.inj hc).symm

lemma EndsLine.newline_mem {text : List Char} (h : EndsLine text) (hne : text ≠ []) :
    '\n' ∈ text := by
  have hlast := List.getLast?_eq_some_getLast hne
  rw [← h _ hlast]
  exact List.getLast_mem hne

/-- What is left of a text that ends a line ends the same line. -/
lemma EndsLine.of_append {u v : List Char} (h : EndsLine (u ++ v)) : EndsLine v := by
  intro c hc
  refine h c ?_
  rw [List.getLast?_append, Option.mem_def.mp hc]
  rfl

/-- The place after a text that goes on below another one. -/
lemma Location.after_append {above : List Char} (h : EndsLine above) (file : String)
    (before : List Char) :
    Location.after file (above ++ before) =
      (Location.after file before).below (above.count '\n') := by
  -- the column is counted from the last line feed, which is in `before` or ends `above`
  have hcolumn : ((above ++ before).reverse.takeWhile (· != '\n')).length =
      (before.reverse.takeWhile (· != '\n')).length := by
    rw [List.reverse_append, List.takeWhile_append]
    split
    next hall =>
      have hhead : (above.reverse.takeWhile (· != '\n')) = [] := by
        cases hreverse : above.reverse with
        | nil => rfl
        | cons c cs =>
          have hc : c = '\n' := h c (by rw [List.getLast?_eq_head?_reverse, hreverse]; rfl)
          simp [hc]
      rw [hhead, List.append_nil, hall]
    next => rfl
  simp only [Location.after, Location.below, hcolumn, List.count_append, Location.mk.injEq,
    true_and, and_true]
  push_cast
  omega

/-! ### Pieces -/

/-- A run that stops at a character is not changed by what follows the character. -/
lemma run_append_of_mem {p : Char → Bool} {c : Char} {cs : List Char} (hp : p c = false)
    (hc : c ∈ cs) (v : List Char) :
    (cs ++ v).takeWhile p = cs.takeWhile p ∧ (cs ++ v).dropWhile p = cs.dropWhile p ++ v ∧
      c ∈ cs.dropWhile p := by
  induction cs with
  | nil => cases hc
  | cons d cs ih =>
    rw [List.cons_append]
    by_cases hd : p d = true
    · have hmem : c ∈ cs := by
        rcases List.mem_cons.mp hc with rfl | hmem
        · rw [hp] at hd
          cases hd
        · exact hmem
      simpa [List.takeWhile_cons_of_pos hd, List.dropWhile_cons_of_pos hd] using ih hmem
    · rw [List.takeWhile_cons_of_neg hd, List.takeWhile_cons_of_neg hd,
        List.dropWhile_cons_of_neg hd, List.dropWhile_cons_of_neg hd]
      exact ⟨rfl, rfl, hc⟩

namespace Piece

variable {c : Char} {cs : List Char}

lemma splitNumeral_append_below (h : '\n' ∈ cs) (v : List Char) :
    splitNumeral (cs ++ v) = ((splitNumeral cs).1, (splitNumeral cs).2 ++ v) := by
  have hfeed : Text.isNumeric '\n' = false := by decide +kernel
  obtain ⟨htake, hdrop, hmem⟩ := run_append_of_mem hfeed h v
  unfold splitNumeral
  rw [htake, hdrop]
  cases hrest : cs.dropWhile Text.isNumeric with
  | nil =>
    rw [hrest] at hmem
    cases hmem
  | cons d rest =>
    by_cases hd : d = '.'
    · subst hd
      have hplaces : '\n' ∈ rest := by
        rw [hrest] at hmem
        simpa using hmem
      obtain ⟨htake', hdrop', -⟩ := run_append_of_mem hfeed hplaces v
      simp only [List.cons_append, htake', hdrop']
    · simp [hd]

lemma splitComment_append_below (h : '\n' ∈ cs) (v : List Char) :
    splitComment (cs ++ v) = ((splitComment cs).1, (splitComment cs).2 ++ v) := by
  have hfeed : ('\n' != '\n') = false := by decide
  obtain ⟨htake, hdrop, hmem⟩ := run_append_of_mem (p := (· != '\n')) hfeed h v
  unfold splitComment
  rw [htake, hdrop]
  cases hrest : cs.dropWhile (· != '\n') with
  | nil =>
    rw [hrest] at hmem
    cases hmem
  | cons d rest => rfl

/-- The first piece of a text in which a line ends is not changed by what is written below. -/
lemma split_append_below (h : '\n' ∈ c :: cs) (v : List Char) :
    split c (cs ++ v) = ((split c cs).1, (split c cs).2 ++ v) := by
  have hfeed : Text.isBlank '\n' = true := by decide +kernel
  have hcontinues := Text.continuesWord_eq_false_of_isBlank hfeed
  unfold split
  split
  next => rfl
  next hblank =>
    split
    next =>
      rw [← List.cons_append, splitNumeral_append_below h]
    next =>
      split
      next =>
        obtain ⟨htake, hdrop, -⟩ := run_append_of_mem hcontinues h v
        rw [← List.cons_append, htake, hdrop]
      next =>
        -- the line does not end with the first character, so the second one is there as well
        have hmem : '\n' ∈ cs := by
          rcases List.mem_cons.mp h with rfl | hmem
          · exact absurd hfeed hblank
          · exact hmem
        cases cs with
        | nil => cases hmem
        | cons d cs =>
          rw [List.cons_append]
          split
          next rest hrest _ _ =>
            obtain ⟨rfl, rfl⟩ := List.cons.inj hrest
            have hbody : '\n' ∈ cs := by simpa using hmem
            exact splitComment_append_below hbody v
          next hslashes =>
            split
            next rest hrest _ _ =>
              obtain ⟨rfl, rfl⟩ := List.cons.inj hrest
              exact (hslashes _ rfl rfl).elim
            next => rfl

/-- What is written below a text that ends a line stays behind its first piece. -/
lemma split_below (h : EndsLine (c :: cs)) (before v : List Char) :
    split c (cs ++ v) = ((split c cs).1, (split c cs).2 ++ v) ∧ EndsLine (split c cs).2 ∧
      before ++ c :: cs = before ++ (split c cs).1.text ++ (split c cs).2 := by
  have hsplit := split_append c cs
  refine ⟨split_append_below (h.newline_mem (by simp)) v, ?_, ?_⟩
  · rw [← hsplit] at h
    exact h.of_append
  · rw [List.append_assoc, hsplit]

end Piece

/-! ### Deliveries -/

section Deliveries

variable {u : List Char}

/-- What is written below a text that ends a line comes after all that the text delivers. -/
lemma deliveries_append (file : String) (h : EndsLine u) (before v : List Char) :
    deliveries file before (u ++ v) =
      deliveries file before u ++ deliveries file (before ++ u) v := by
  fun_induction deliveries file before u with
  | case1 before => rw [List.append_nil]; rfl
  | case2 before c cs after later text hpiece ih =>
    obtain ⟨hbelow, hrest, hwhole⟩ := Piece.split_below h before v
    rw [List.cons_append, deliveries, hbelow]
    simp only [hpiece]
    rw [hwhole, ← hpiece, ih hrest]
  | case3 before c cs after later text content hpiece ih
  | case4 before c cs after later text content hpiece ih =>
    obtain ⟨hbelow, hrest, hwhole⟩ := Piece.split_below h before v
    rw [List.cons_append, deliveries, hbelow]
    simp only [hpiece]
    rw [hwhole, ← hpiece, ih hrest, List.cons_append]

/-- Below a text that ends a line, the same is delivered so many lines further down. -/
lemma reading_deliveries_below (file : String) (h : EndsLine u) (before text : List Char) :
    (deliveries file (u ++ before) text).map (·.reading) =
      ((deliveries file before text).map (·.reading)).map (·.below (u.count '\n')) := by
  fun_induction deliveries file before text with
  | case1 before => rw [deliveries]; rfl
  | case2 before c cs after later text hpiece ih =>
    rw [deliveries]
    simp only [hpiece]
    rw [← hpiece, List.append_assoc]
    exact ih
  | case3 before c cs after later text content hpiece ih
  | case4 before c cs after later text content hpiece ih =>
    rw [deliveries]
    simp only [hpiece]
    rw [← hpiece, List.append_assoc, List.map_cons, ih, Location.after_append h]
    rfl

end Deliveries

/-- The words and the faults of a text and of what is written below it, the latter so many lines
further down. -/
lemma readings_append_newline (file a b : String) :
    readings file (a ++ "\n" ++ b) = readings file (a ++ "\n") ++
      (readings file b).map (·.below ((a ++ "\n").toList.count '\n')) := by
  have hends : EndsLine (a ++ "\n").toList := by
    simpa using endsLine_concat a.toList
  rw [readings, String.toList_append, deliveries_append file hends, List.map_append,
    List.nil_append]
  have hbelow := reading_deliveries_below file hends [] b.toList
  rw [List.append_nil] at hbelow
  rw [hbelow]
  rfl

/-! ### Scans -/

/-- A token that was delivered, or the fault that was delivered in its place. -/
def Reading.toExcept : Reading → Except ScanError Token
  | .token t => .ok t
  | .fault e => .error e

lemma mapM_toExcept_tokens (tokens : List Token) :
    (tokens.map Reading.token).mapM Reading.toExcept = .ok tokens := by
  induction tokens with
  | nil => rfl
  | cons t tokens ih =>
    rw [List.map_cons, List.mapM_cons, ih]
    rfl

/-- A scan gives all tokens that a text delivers, or the first fault. -/
lemma scan_eq_mapM_readings (file source : String) :
    scan file source = (readings file source).mapM Reading.toExcept := by
  have hscan : scan file source = (Cursor.between file [] source.toList).drain.1 := rfl
  rw [hscan, readings]
  generalize hds : deliveries file [] source.toList = ds
  rcases Cursor.drain_of_deliveries hds with ⟨tokens, htokens, hdrain⟩ |
    ⟨taken, later, tokens, e, consumed, rest, rfl, htaken, -, -, hdrain⟩
  · rw [hdrain, htokens, mapM_toExcept_tokens]
  · rw [hdrain, List.map_append, htaken, List.mapM_append, mapM_toExcept_tokens]
    rfl

/-- What is read further down is the same further down. -/
lemma mapM_toExcept_below (lines : Nat) (rs : List Reading) :
    (rs.map (·.below lines)).mapM Reading.toExcept =
      ((rs.mapM Reading.toExcept).map (List.map (·.below lines))).mapError (·.below lines) := by
  induction rs with
  | nil => rfl
  | cons r rs ih =>
    rw [List.map_cons, List.mapM_cons, List.mapM_cons, ih]
    cases r with
    | fault e => rfl
    | token t =>
      show _ = ((rs.mapM Reading.toExcept >>= fun ts => pure (t :: ts)).map _).mapError _
      cases rs.mapM Reading.toExcept <;> rfl

/-- A text and what is written below it are scanned one after the other. A fault of the text above
is the fault of the whole; otherwise its tokens come first, and then come the tokens of the text
below, or its fault, each in the same column and as many lines further down as the text above
has. -/
theorem scan_append_newline (file a b : String) :
    scan file (a ++ "\n" ++ b) = do
      let lines := (a ++ "\n").toList.count '\n'
      let above ← scan file (a ++ "\n")
      let below ← ((scan file b).map (List.map (·.below lines))).mapError (·.below lines)
      return above ++ below := by
  rw [scan_eq_mapM_readings, readings_append_newline, List.mapM_append, mapM_toExcept_below,
    ← scan_eq_mapM_readings, ← scan_eq_mapM_readings]

/-- Two slashes with a line feed between them begin no comment, and a fault keeps its column. -/
example : scan "a" ("x/" ++ "\n" ++ "/ #") = .error ⟨.strayCharacter '#', some ⟨"a", 2, 3⟩⟩ := by
  decide +kernel

end TinyCompiler
