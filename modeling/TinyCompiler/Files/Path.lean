/-!
# Paths

A path is text whose parts are divided by slashes. Its normal form drops what says nothing: parts
that are empty or a single dot, and slashes at the end. Two dots are kept, because what they mean
depends on the directories there are. A path and its parts are limited in length, counted in bytes,
and no path has a null character in it.
-/

namespace TinyCompiler.Path

/-- The characters between the slashes of a path. -/
def splitSlashes : List Char → List (List Char)
  | [] => [[]]
  | '/' :: rest => [] :: splitSlashes rest
  | c :: rest =>
    match splitSlashes rest with
    | [] => [[c]]
    | part :: parts => (c :: part) :: parts

/-- All parts of a path, also those that say nothing. -/
def rawParts (path : String) : List String := (splitSlashes path.toList).map String.ofList

/-- Whether a part of a path says nothing. -/
def isIdle (part : String) : Bool := part == "" || part == "."

/-- The slashes that a path begins with in its normal form: two are kept, more count as one. -/
def root (path : String) : String :=
  match path.toList with
  | '/' :: '/' :: '/' :: _ => "/"
  | '/' :: '/' :: _ => "//"
  | '/' :: _ => "/"
  | _ => ""

/-- The normal form of a path; the path that says nothing at all is a single dot. -/
def normal (path : String) : String :=
  let parts := (rawParts path).filter (!isIdle ·)
  let text := root path ++ "/".intercalate parts
  if text.isEmpty then "." else text

/-- Whether a null character stands in a path. -/
def hasNull (path : String) : Bool := path.toList.contains '\x00'

/-- Whether a path as a whole is longer than paths can be. -/
def isTooLong (path : String) : Bool := 4095 < path.utf8ByteSize

/-- Whether a part of a path is longer than names can be. -/
def isLongPart (part : String) : Bool := 255 < part.utf8ByteSize

end TinyCompiler.Path
