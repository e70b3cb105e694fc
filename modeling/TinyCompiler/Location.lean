/-!
# Places in a text

A position counts lines and columns from one; a location is a position in a named text. Positions
move over characters one by one, so the position after a text depends on the text alone.
-/

namespace TinyCompiler

/-- A line and a column, both counted from one. -/
structure Position where
  line : Nat
  column : Nat
  deriving DecidableEq, Repr

namespace Position

/-- The first place of a text. -/
def start : Position := ⟨1, 1⟩

/-- The place after a character: the next column, or the next line after a line feed. -/
def advance (p : Position) (c : Char) : Position :=
  if c = '\n' then ⟨p.line + 1, 1⟩ else ⟨p.line, p.column + 1⟩

/-- The place after a text. -/
def after (p : Position) (text : List Char) : Position := text.foldl advance p

@[simp] theorem after_nil (p : Position) : p.after [] = p := rfl

@[simp] theorem after_cons (p : Position) (c : Char) (text : List Char) :
    p.after (c :: text) = (p.advance c).after text := rfl

@[simp] theorem after_append (p : Position) (s t : List Char) :
    p.after (s ++ t) = (p.after s).after t := List.foldl_append

end Position

/-- A place in a named text. Lines and columns given by hand may be any integers. -/
structure Location where
  file : String
  line : Int
  column : Int
  deriving DecidableEq, Repr

namespace Location

/-- A position in a named text. -/
def ofPosition (file : String) (p : Position) : Location := ⟨file, p.line, p.column⟩

/-- Line and column alone. -/
def place (l : Location) : String := toString l.line ++ ":" ++ toString l.column

/-- The location as it stands in front of a message. -/
def text (l : Location) : String := l.file ++ ":" ++ l.place

end Location

end TinyCompiler
