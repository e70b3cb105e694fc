import Mathlib.Order.Bounds.Defs
import Mathlib.Order.MinMax
import Mathlib.Tactic.Lemma
import TinyCompiler.Text.Similar

/-!
# Edits of a text

An edit puts in, takes out or replaces a single character at some place of a text, and a script is a
row of edits that are made one after the other, each on the text that the one before it left. The
distance of two texts is the length of a shortest script that turns the first into the second
(`isLeast_editDistance`).

Between rows and scripts stands the recursion that the rows work off (`distance`). It runs over the
two texts from their ends, since the row of a text holds the distances to beginnings of the other.
Where the last characters agree it looks at one neighbour only; nothing is lost by that, because
neighbouring distances differ by at most one (`distance_cons_near`).
-/

namespace TinyCompiler.Text

/-! ### Scripts -/

/-- A change of a single character, at a place counted from zero. -/
inductive Edit where
  /-- Puts a character in, before the one that stood at the place, or at the end. -/
  | insert (place : Nat) (c : Char)
  /-- Takes a character out. -/
  | delete (place : Nat)
  /-- Puts a character in the place of another one. -/
  | substitute (place : Nat) (c : Char)
  deriving DecidableEq, Repr

namespace Edit

/-- The text after an edit, if it has the place of the edit. -/
def apply : Edit → List Char → Option (List Char)
  | .insert place c, text => if place ≤ text.length then some (text.insertIdx place c) else none
  | .delete place, text => if place < text.length then some (text.eraseIdx place) else none
  | .substitute place c, text => if place < text.length then some (text.set place c) else none

/-- The text after the edits of a script. -/
def applyAll : (script : List Edit) → List Char → Option (List Char)
  | [], text => some text
  | e :: script, text => (e.apply text).bind (applyAll script)

variable {e : Edit} {script script' : List Edit} {a b d : List Char}

lemma apply_insert (before after : List Char) (c : Char) :
    (insert before.length c).apply (before ++ after) = some (before ++ c :: after) := by
  have hinsert : (before ++ after).insertIdx before.length c = before ++ c :: after := by
    induction before with
    | nil => rfl
    | cons x before ih => simpa using ih
  simp [apply, hinsert]

lemma apply_delete (before after : List Char) (c : Char) :
    (delete before.length).apply (before ++ c :: after) = some (before ++ after) := by
  simp [apply, List.eraseIdx_append_of_length_le]

lemma apply_substitute (before after : List Char) (c c' : Char) :
    (substitute before.length c').apply (before ++ c :: after) = some (before ++ c' :: after) := by
  simp [apply, List.set_append_right]

/-- A text falls into what stands before a place, the character at the place, and what follows it. -/
lemma exists_split {place : Nat} (h : place < a.length) :
    ∃ before c after, a = before ++ c :: after ∧ before.length = place :=
  ⟨a.take place, a[place], a.drop (place + 1), by simp, by simp [Nat.le_of_lt h]⟩

/-- What an edit does: at its place a character has been put in, taken out or replaced. -/
lemma apply_cases (h : e.apply a = some b) :
    ∃ before after,
      (∃ c, e = insert before.length c ∧ a = before ++ after ∧ b = before ++ c :: after) ∨
      (∃ c, e = delete before.length ∧ a = before ++ c :: after ∧ b = before ++ after) ∨
      ∃ c c', e = substitute before.length c' ∧ a = before ++ c :: after ∧
        b = before ++ c' :: after := by
  cases e with
  | insert place c =>
    obtain ⟨hplace, -⟩ : place ≤ a.length ∧ a.insertIdx place c = b := by simpa [apply] using h
    have hlength : (a.take place).length = place := by simp [hplace]
    have hsplit := apply_insert (a.take place) (a.drop place) c
    rw [List.take_append_drop, hlength, h, Option.some.injEq] at hsplit
    exact ⟨a.take place, a.drop place, .inl ⟨c, by rw [hlength], by simp, hsplit⟩⟩
  | delete place =>
    obtain ⟨hplace, -⟩ : place < a.length ∧ a.eraseIdx place = b := by simpa [apply] using h
    obtain ⟨before, c, after, rfl, rfl⟩ := exists_split hplace
    rw [apply_delete, Option.some.injEq] at h
    exact ⟨before, after, .inr (.inl ⟨c, rfl, rfl, h.symm⟩)⟩
  | substitute place c' =>
    obtain ⟨hplace, -⟩ : place < a.length ∧ a.set place c' = b := by simpa [apply] using h
    obtain ⟨before, c, after, rfl, rfl⟩ := exists_split hplace
    rw [apply_substitute, Option.some.injEq] at h
    exact ⟨before, after, .inr (.inr ⟨c, c', rfl, rfl, h.symm⟩)⟩

/-- An edit does the same where more text follows. -/
lemma apply_append (h : e.apply a = some b) (more : List Char) :
    e.apply (a ++ more) = some (b ++ more) := by
  obtain ⟨before, after, ⟨c, rfl, rfl, rfl⟩ | ⟨c, rfl, rfl, rfl⟩ | ⟨c, c', rfl, rfl, rfl⟩⟩ :=
    apply_cases h
  · simpa using apply_insert before (after ++ more) c
  · simpa using apply_delete before (after ++ more) c
  · simpa using apply_substitute before (after ++ more) c c'

lemma applyAll_append (h : applyAll script a = some b) (more : List Char) :
    applyAll script (a ++ more) = some (b ++ more) := by
  induction script generalizing a with
  | nil =>
    cases h
    rfl
  | cons e script ih =>
    obtain ⟨a', he, hscript⟩ := Option.bind_eq_some_iff.mp h
    rw [applyAll, apply_append he, Option.bind_some]
    exact ih hscript

/-- Two scripts one after the other. -/
lemma applyAll_trans (h : applyAll script a = some b) (h' : applyAll script' b = some d) :
    applyAll (script ++ script') a = some d := by
  induction script generalizing a with
  | nil =>
    cases h
    exact h'
  | cons e script ih =>
    obtain ⟨a', he, hscript⟩ := Option.bind_eq_some_iff.mp h
    rw [List.cons_append, applyAll, he, Option.bind_some]
    exact ih hscript

/-- A script of the given length turns one text into another. -/
def Turns (n : Nat) (a b : List Char) : Prop :=
  ∃ script : List Edit, script.length = n ∧ applyAll script a = some b

namespace Turns

variable {n m : Nat}

lemma refl (a : List Char) : Turns 0 a a := ⟨[], rfl, rfl⟩

lemma trans (h : Turns n a b) (h' : Turns m b d) : Turns (n + m) a d := by
  obtain ⟨script, rfl, hscript⟩ := h
  obtain ⟨script', rfl, hscript'⟩ := h'
  exact ⟨script ++ script', List.length_append, applyAll_trans hscript hscript'⟩

lemma single (h : e.apply a = some b) : Turns 1 a b :=
  ⟨[e], rfl, by rw [applyAll, h, Option.bind_some, applyAll]⟩

lemma append (h : Turns n a b) (more : List Char) : Turns n (a ++ more) (b ++ more) := by
  obtain ⟨script, hlength, hscript⟩ := h
  exact ⟨script, hlength, applyAll_append hscript more⟩

/-- A last character is put in once the rest has been done. -/
lemma insert_last (h : Turns n a b) (c : Char) : Turns (n + 1) a (b ++ [c]) :=
  h.trans (single (by simpa using apply_insert b [] c))

/-- A last character is taken out before the rest is done. -/
lemma delete_last (h : Turns n a b) (c : Char) : Turns (n + 1) (a ++ [c]) b := by
  have hdelete : Turns 1 (a ++ [c]) a := single (by simpa using apply_delete a [] c)
  rw [Nat.add_comm]
  exact hdelete.trans h

/-- A last character is replaced once the rest has been done. -/
lemma substitute_last (h : Turns n a b) (c c' : Char) : Turns (n + 1) (a ++ [c]) (b ++ [c']) :=
  (h.append [c]).trans (single (apply_substitute b [] c c'))

end Turns

end Edit

/-! ### The recursion behind the rows -/

/-- The distance of two texts that are read from their ends. -/
def distance : List Char → List Char → Nat
  | [], ys => ys.length
  | xs, [] => xs.length
  | x :: xs, y :: ys =>
    if x = y then distance xs ys
    else 1 + min (distance xs ys) (min (distance xs (y :: ys)) (distance (x :: xs) ys))
termination_by xs ys => xs.length + ys.length

section Distance

variable {x y : Char}

@[simp] lemma distance_nil_left (ys : List Char) : distance [] ys = ys.length := by
  rw [distance]

@[simp] lemma distance_nil_right (xs : List Char) : distance xs [] = xs.length := by
  cases xs <;> simp [distance]

lemma distance_cons_self (x : Char) (xs ys : List Char) :
    distance (x :: xs) (x :: ys) = distance xs ys := by
  rw [distance, if_pos rfl]

lemma distance_cons_of_ne (h : x ≠ y) (xs ys : List Char) :
    distance (x :: xs) (y :: ys) =
      1 + min (distance xs ys) (min (distance xs (y :: ys)) (distance (x :: xs) ys)) := by
  rw [distance, if_neg h]

lemma distance_self (xs : List Char) : distance xs xs = 0 := by
  induction xs with
  | nil => simp
  | cons x xs ih => rw [distance_cons_self, ih]

/-- It does not matter which text is laid out across. -/
lemma distance_comm (xs ys : List Char) : distance xs ys = distance ys xs := by
  fun_induction distance xs ys with
  | case1 ys => simp
  | case2 xs hxs => simp
  | case3 xs x ys ih => rw [distance_cons_self, ih]
  | case4 x xs y ys hne ih ihup ihleft =>
    rw [distance_cons_of_ne (Ne.symm hne), ih, ihup, ihleft]
    omega

/-- Neighbouring distances differ by at most one. -/
lemma distance_cons_near (c : Char) (xs ys : List Char) :
    distance xs ys ≤ distance (c :: xs) ys + 1 ∧ distance (c :: xs) ys ≤ distance xs ys + 1 := by
  match ys with
  | [] =>
    simp only [distance_nil_right, List.length_cons]
    omega
  | y :: ys =>
    obtain ⟨hleft, -⟩ := distance_cons_near c xs ys
    -- the neighbours in the other direction, by symmetry
    have hacross := distance_cons_near y ys xs
    rw [distance_comm ys xs, distance_comm (y :: ys) xs] at hacross
    by_cases hc : c = y
    · subst hc
      rw [distance_cons_self]
      exact hacross.symm
    · rw [distance_cons_of_ne hc]
      omega
termination_by xs.length + ys.length

end Distance

/-! ### No script is shorter -/

/-- One text comes from another by a single edit, both being read from their ends. -/
inductive OneEdit : List Char → List Char → Prop
  | insert {c : Char} {xs : List Char} : OneEdit xs (c :: xs)
  | delete {c : Char} {xs : List Char} : OneEdit (c :: xs) xs
  | substitute {c c' : Char} {xs : List Char} : OneEdit (c :: xs) (c' :: xs)
  | skip {c : Char} {xs xs' : List Char} (h : OneEdit xs xs') : OneEdit (c :: xs) (c :: xs')

lemma OneEdit.append_left {xs xs' : List Char} (h : OneEdit xs xs') (more : List Char) :
    OneEdit (more ++ xs) (more ++ xs') := by
  induction more with
  | nil => exact h
  | cons c more ih => exact .skip ih

lemma Edit.oneEdit_of_apply {e : Edit} {a b : List Char} (h : e.apply a = some b) :
    OneEdit a.reverse b.reverse := by
  obtain ⟨before, after, ⟨c, -, rfl, rfl⟩ | ⟨c, -, rfl, rfl⟩ | ⟨c, c', -, rfl, rfl⟩⟩ :=
    apply_cases h
  · simpa using OneEdit.insert.append_left after.reverse
  · simpa using OneEdit.delete.append_left after.reverse
  · simpa using OneEdit.substitute.append_left after.reverse

/-- A single edit changes the distance to a text by at most one. -/
lemma OneEdit.distance_le {xs xs' : List Char} (h : OneEdit xs xs') (ys : List Char) :
    distance xs ys ≤ distance xs' ys + 1 := by
  induction h generalizing ys with
  | insert => exact (distance_cons_near _ _ ys).1
  | delete => exact (distance_cons_near _ _ ys).2
  | @substitute c c' xs =>
    induction ys with
    | nil => simp
    | cons y ys ih =>
      have hacross := distance_cons_near y ys xs
      rw [distance_comm ys xs, distance_comm (y :: ys) xs] at hacross
      have hdown := distance_cons_near c' xs ys
      by_cases hc : c = y <;> by_cases hc' : c' = y
      · rw [hc, hc']
        omega
      · rw [hc, distance_cons_self, distance_cons_of_ne hc']
        omega
      · rw [hc', distance_cons_self, distance_cons_of_ne hc]
        omega
      · rw [distance_cons_of_ne hc, distance_cons_of_ne hc']
        omega
  | @skip c xs xs' h ih =>
    induction ys with
    | nil =>
      have := ih []
      simp only [distance_nil_right, List.length_cons] at this ⊢
      omega
    | cons y ys ihys =>
      by_cases hc : c = y
      · rw [hc, distance_cons_self, distance_cons_self]
        exact ih ys
      · have hdiagonal := ih ys
        have hup := ih (y :: ys)
        rw [distance_cons_of_ne hc, distance_cons_of_ne hc]
        omega

/-- A script has at least as many edits as the distance of the texts between which it leads. -/
lemma Edit.distance_le_length {script : List Edit} {a b : List Char}
    (h : applyAll script a = some b) : distance a.reverse b.reverse ≤ script.length := by
  induction script generalizing a with
  | nil =>
    cases h
    rw [distance_self]
    exact Nat.zero_le _
  | cons e script ih =>
    obtain ⟨a', he, hscript⟩ := Option.bind_eq_some_iff.mp h
    calc distance a.reverse b.reverse
        ≤ distance a'.reverse b.reverse + 1 := (oneEdit_of_apply he).distance_le _
      _ ≤ script.length + 1 := Nat.add_le_add_right (ih hscript) 1

/-! ### Some script is as short -/

/-- A script of the length of the distance follows the recursion: where the last characters agree,
they stay, and otherwise the best neighbour tells which edit to make. -/
lemma Edit.turns_distance (xs ys : List Char) : Turns (distance xs ys) xs.reverse ys.reverse := by
  fun_induction distance xs ys with
  | case1 ys =>
    induction ys with
    | nil => exact .refl []
    | cons y ys ih => simpa using ih.insert_last y
  | case2 xs hxs =>
    clear hxs
    induction xs with
    | nil => exact .refl []
    | cons x xs ih => simpa using ih.delete_last x
  | case3 xs x ys ih => simpa using ih.append [x]
  | case4 x xs y ys hne ih ihup ihleft =>
    have hsubstitute := ih.substitute_last x y
    have hdelete := ihup.delete_last x
    have hinsert := ihleft.insert_last y
    rw [Nat.add_comm, List.reverse_cons, List.reverse_cons]
    rw [List.reverse_cons] at hdelete hinsert
    rcases min_choice (distance xs ys) (min (distance xs (y :: ys)) (distance (x :: xs) ys)) with
      hmin | hmin
    · rw [hmin]
      exact hsubstitute
    · rw [hmin]
      rcases min_choice (distance xs (y :: ys)) (distance (x :: xs) ys) with hmin | hmin
      · rw [hmin]
        exact hdelete
      · rw [hmin]
        exact hinsert

/-! ### Rows -/

/-- The distances from a text to what a second text becomes as it goes on with the characters of
`across`, one after the other; both texts are read from their ends. -/
def entries (xs : List Char) : (ys across : List Char) → List Nat
  | _, [] => []
  | ys, d :: across => distance xs (d :: ys) :: entries xs (d :: ys) across

lemma rowFrom_entries (c : Char) (xs ys across : List Char) :
    rowFrom c (distance (c :: xs) ys) (distance xs ys) (entries xs ys across) across =
      entries (c :: xs) ys across := by
  induction across generalizing ys with
  | nil => rfl
  | cons d across ih =>
    have hentry : (if c = d then distance xs ys else
        1 + min (distance xs ys) (min (distance xs (d :: ys)) (distance (c :: xs) ys))) =
          distance (c :: xs) (d :: ys) := by
      rw [distance]
    simp only [entries, rowFrom, hentry, ih]

/-- Going on with a character leads from the row of a text to the next one. -/
lemma nextRow_entries (c : Char) (xs across : List Char) :
    nextRow across (distance xs [] :: entries xs [] across) c =
      distance (c :: xs) [] :: entries (c :: xs) [] across := by
  have hfirst : distance xs [] + 1 = distance (c :: xs) [] := by simp
  rw [nextRow, hfirst, rowFrom_entries]

lemma foldl_nextRow (down xs across : List Char) :
    down.foldl (nextRow across) (distance xs [] :: entries xs [] across) =
      distance (down.reverse ++ xs) [] :: entries (down.reverse ++ xs) [] across := by
  induction down generalizing xs with
  | nil => rfl
  | cons c down ih =>
    rw [List.foldl_cons, nextRow_entries, ih, List.reverse_cons, List.append_assoc]
    rfl

/-- The first row counts the characters of the second text. -/
lemma entries_nil (ys across : List Char) :
    entries [] ys across = List.range' (ys.length + 1) across.length := by
  induction across generalizing ys with
  | nil => rfl
  | cons d across ih => simp [entries, ih, List.range'_succ]

lemma distanceRow_eq (down across : List Char) :
    distanceRow down across =
      distance down.reverse [] :: entries down.reverse [] across := by
  have hstart : List.range (across.length + 1) = distance [] [] :: entries [] [] across := by
    simp [entries_nil, List.range_eq_range', List.range'_succ]
  rw [distanceRow, hstart, foldl_nextRow, List.append_nil]

lemma getLastD_entries (xs ys across : List Char) :
    (entries xs ys across).getLastD (distance xs ys) = distance xs (across.reverse ++ ys) := by
  induction across generalizing ys with
  | nil => rfl
  | cons d across ih =>
    rw [entries, List.getLastD_cons, ih, List.reverse_cons, List.append_assoc]
    rfl

/-- The last entry of the last row is the distance of the texts. -/
lemma editDistance_eq (a b : String) :
    editDistance a b = distance a.toList.reverse b.toList.reverse := by
  have hlast : ∀ down across : String, (distanceRow down.toList across.toList).getLastD 0 =
      distance down.toList.reverse across.toList.reverse := by
    intro down across
    rw [distanceRow_eq, List.getLastD_cons, getLastD_entries, List.append_nil]
  by_cases hshorter : a.length < b.length
  · simp only [editDistance, if_pos hshorter, hlast]
    exact distance_comm _ _
  · simp only [editDistance, if_neg hshorter, hlast]

/-- The distance of two texts is the least number of insertions, deletions and substitutions of
single characters that turn the first into the second: a script of so many edits does it, and none
does it with fewer. -/
theorem isLeast_editDistance (a b : String) :
    IsLeast {n | ∃ script : List Edit, script.length = n ∧
      Edit.applyAll script a.toList = some b.toList} (editDistance a b) := by
  rw [editDistance_eq]
  constructor
  · have hturns := Edit.turns_distance a.toList.reverse b.toList.reverse
    rw [List.reverse_reverse, List.reverse_reverse] at hturns
    exact hturns
  · rintro n ⟨script, rfl, hscript⟩
    exact Edit.distance_le_length hscript

-- two letters that have changed places are two edits apart
example : editDistance "main" "mian" = 2 ∧
    Edit.applyAll [.delete 1, .insert 2 'a'] "main".toList = some "mian".toList := by decide +kernel

end TinyCompiler.Text
