/-!
# Tables in order of entry

A table gives values to names and remembers the order in which the names were entered.
-/

namespace TinyCompiler

/-- Names with their values, in the order in which the names were entered. -/
abbrev Table (α : Type) := List (String × α)

namespace Table

variable {α : Type}

/-- The value of a name. -/
def get? (t : Table α) (name : String) : Option α := (t.find? (·.1 == name)).map (·.2)

/-- Whether a name was entered. -/
def has (t : Table α) (name : String) : Bool := t.any (·.1 == name)

/-- The names in the order of entry. -/
def names (t : Table α) : List String := t.map (·.1)

/-- Enters a value. A name that was entered before keeps its place and takes the new value. -/
def put : Table α → String → α → Table α
  | [], name, value => [(name, value)]
  | (n, v) :: rest, name, value =>
    if n = name then (n, value) :: rest else (n, v) :: put rest name value

/-- The table of a list of entries. -/
def ofList (entries : List (String × α)) : Table α :=
  entries.foldl (fun t e => t.put e.1 e.2) []

/-- Whether two tables give the same values to the same names, in whatever order. -/
def sameMapping [BEq α] (s t : Table α) : Bool :=
  s.length == t.length && s.all fun (name, value) => t.get? name == some value

@[simp] theorem get?_nil (name : String) : get? ([] : Table α) name = none := rfl

/-- The first entry of a name decides its value. -/
theorem get?_cons (n : String) (v : α) (t : Table α) (name : String) :
    get? ((n, v) :: t) name = if n = name then some v else get? t name := by
  by_cases h : n = name
  · simp [get?, h]
  · simp [get?, h]

/-- A name was entered exactly if it has a value. -/
theorem has_eq_isSome_get? (t : Table α) (name : String) : t.has name = (t.get? name).isSome := by
  induction t with
  | nil => rfl
  | cons e t ih =>
    obtain ⟨n, v⟩ := e
    rw [get?_cons]
    by_cases h : n = name
    · simp [has, h]
    · have hne : (n == name) = false := beq_false_of_ne h
      simpa [has, h, hne] using ih

/-- What is entered at the end counts only for names that were not entered before. -/
theorem get?_append (s t : Table α) (name : String) :
    get? (s ++ t) name = (get? s name).or (get? t name) := by
  induction s with
  | nil => rfl
  | cons e s ih =>
    obtain ⟨n, v⟩ := e
    rw [List.cons_append, get?_cons, get?_cons]
    by_cases h : n = name
    · simp [h]
    · simpa [h] using ih

end Table

end TinyCompiler
