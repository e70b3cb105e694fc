import TinyCompiler.Compile
import TinyCompiler.Files.Tree

/-!
# Compiling a file

A source file is read, compiled, and its listing is perhaps written to another file. How paths are
looked up is a parameter, and what is to be written is part of the result.
-/

namespace TinyCompiler

/-- A text that is to be written to a file. -/
structure Output where
  path : String
  text : String
  deriving DecidableEq, Repr

/-- The text that a path leads to, read from its normal form. -/
def readSource (look : String → Entry) (path : String) : Except Failure String := do
  let bytes ← ((look path).read path).mapError .file
  (Text.readBytes bytes).mapError .encoding

/-- Compiles the file of a path: the listing, and what is to be written. The path is named in
messages just as it is given. An empty path for the output writes nothing. -/
def compileFile (look : String → Entry) (layout : Layout) (path : String) (output : Option String) :
    Except Failure (String × Option Output) := do
  layout.validate.mapError .options
  let normal := Path.normal path
  if !(← ((look normal).isPresent normal).mapError .file) then throw (.file (.noSource path))
  let source ← readSource look normal
  let assembly := (← compileWith layout path source).assembly
  match output with
  | none => return (assembly, none)
  | some out =>
    if out.isEmpty then return (assembly, none)
    let target := Path.normal out
    ((look target).checkWritable target).mapError .file
    return (assembly, some ⟨target, assembly⟩)

end TinyCompiler
