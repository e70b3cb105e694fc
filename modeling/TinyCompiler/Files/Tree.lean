import TinyCompiler.Failure
import TinyCompiler.Files.Path

/-!
# Files

What a path leads to, and what reading and writing there give. A tree of files and directories
answers that question by walking from part to part, starting in its own top directory.
-/

namespace TinyCompiler

/-- What a path leads to. -/
inductive Entry where
  /-- A file with these bytes. -/
  | file (bytes : List UInt8)
  /-- A directory. -/
  | directory
  /-- Nothing, in a directory that exists. -/
  | vacant
  /-- Nothing, in a directory that does not exist either. -/
  | noDirectory
  /-- Nothing, because a part of the path that should be a directory is a file. -/
  | throughFile
  /-- Nothing, because the path or a part of it is too long. -/
  | tooLong
  /-- Nothing, because what is given is no path at all. -/
  | noPath
  deriving DecidableEq, Repr

namespace Entry

/-- Whether there is something, unless the path is too long for an answer; `path` is named in
complaints. -/
def isPresent (path : String) : Entry → Except FileError Bool
  | .file _ | .directory => .ok true
  | .tooLong => .error (.tooLong path)
  | .vacant | .noDirectory | .throughFile | .noPath => .ok false

/-- The bytes that reading gives; `path` is named in complaints. -/
def read (path : String) : Entry → Except FileError (List UInt8)
  | .file bytes => .ok bytes
  | .directory => .error (.isDirectory path)
  | .vacant | .noDirectory => .error (.notFound path)
  | .throughFile => .error (.throughFile path)
  | .tooLong => .error (.tooLong path)
  | .noPath => .error .nullCharacter

/-- Whether a file can be written; `path` is named in complaints. -/
def checkWritable (path : String) : Entry → Except FileError Unit
  | .file _ | .vacant => .ok ()
  | .directory => .error (.isDirectory path)
  | .noDirectory => .error (.notFound path)
  | .throughFile => .error (.throughFile path)
  | .tooLong => .error (.tooLong path)
  | .noPath => .error .nullCharacter

end Entry

/-- Directories and files, each by the parts of its path from the top. The top and every directory
on the way to something are directories even if they are not listed. -/
structure FileTree where
  directories : List (List String)
  files : List (List String × List UInt8)
  deriving DecidableEq, Repr

namespace FileTree

/-- Where a walk stands: inside the tree, or in a directory outside it of which nothing is known. -/
inductive Place where
  | inside (parts : List String)
  | outside
  deriving DecidableEq, Repr

/-- The bytes of a file. -/
def file? (t : FileTree) (parts : List String) : Option (List UInt8) :=
  (t.files.find? (·.1 == parts)).map (·.2)

/-- Whether there is a directory: one that is listed, or one on the way to something. -/
def isDirectory (t : FileTree) (parts : List String) : Bool :=
  parts.isEmpty || t.directories.any parts.isPrefixOf ||
    t.files.any fun f => parts.isPrefixOf f.1 && parts != f.1

/-- Walks on from a directory: what the path leads to, and its place if it is inside the tree. -/
def walk (t : FileTree) : Place → List String → Entry × Option (List String)
  | .inside here, [] => (.directory, some here)
  | .outside, [] => (.directory, none)
  | place, part :: parts =>
    if Path.isIdle part then t.walk place parts
    else if part = ".." then
      match place with
      | .inside here => t.walk (if here.isEmpty then .outside else .inside here.dropLast) parts
      | .outside => t.walk .outside parts
    else if Path.isLongPart part then (.tooLong, none)
    else
      match place with
      | .outside => (if parts.isEmpty then .vacant else .noDirectory, none)
      | .inside here =>
        let there := here ++ [part]
        match t.file? there with
        | some bytes => (if parts.isEmpty then .file bytes else .throughFile, some there)
        | none =>
          if t.isDirectory there then t.walk (.inside there) parts
          else (if parts.isEmpty then .vacant else .noDirectory, some there)

/-- Walks along a path from the top. The empty path leads nowhere. -/
def follow (t : FileTree) (path : String) : Entry × Option (List String) :=
  if Path.hasNull path then (.noPath, none)
  else if Path.isTooLong path then (.tooLong, none)
  else if path.isEmpty then (.noDirectory, none)
  else t.walk (if Path.root path = "" then .inside [] else .outside) (Path.rawParts path)

/-- What a path leads to. -/
def look (t : FileTree) (path : String) : Entry := (t.follow path).1

/-- Puts a file where a path leads to, if that is inside the tree. -/
def write (t : FileTree) (path : String) (bytes : List UInt8) : FileTree :=
  match (t.follow path).2 with
  | none => t
  | some parts => { t with files := t.files.filter (·.1 != parts) ++ [(parts, bytes)] }

/-- The files that are new or have other bytes than before. -/
def changes (before after : FileTree) : List (String × List UInt8) :=
  (after.files.filter fun f => before.file? f.1 != some f.2).map fun f =>
    ("/".intercalate f.1, f.2)

end FileTree

end TinyCompiler
