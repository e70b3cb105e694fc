import TinyCompiler.CommandLine.Run

/-!
# The command

The outermost layer: looks up the paths that the arguments name, runs the command on what was found,
and does what the answer says.
-/

namespace TinyCompiler.CommandLine

/-- What a path leads to on disk. -/
def lookOnDisk (path : String) : IO Entry := do
  if Path.hasNull path then return .noPath
  if Path.isTooLong path || (Path.rawParts path).any Path.isLongPart then return .tooLong
  if path.isEmpty then return .noDirectory
  let here ← IO.currentDir
  let place := here / path
  try
    if ← place.isDir then return .directory
    return .file (← IO.FS.readBinFile place).toList
  catch _ =>
    let parent := place.parent.getD here
    if ← parent.isDir then return .vacant
    if ← parent.pathExists then return .throughFile
    return .noDirectory

/-- The entry of a path among those that were looked up. -/
def foundEntry (found : List (String × Entry)) (path : String) : Entry :=
  ((found.find? (·.1 == path)).map (·.2)).getD .noDirectory

/-- The paths that arguments name, as they are given and in their normal form. -/
def namedPaths (arguments : List String) : List String :=
  match Request.empty.read arguments with
  | .ok request =>
    let paths := request.files.take 1 ++ request.output.toList
    paths ++ paths.map Path.normal
  | .error _ => []

end TinyCompiler.CommandLine

open TinyCompiler CommandLine in
/-- Runs the command on the paths that its arguments name. -/
def main (arguments : List String) : IO UInt32 := do
  let found ← (namedPaths arguments).mapM fun path => return (path, ← lookOnDisk path)
  let answer := run (foundEntry found) arguments
  match answer.output with
  | some output => IO.FS.writeFile output.path output.text
  | none => pure ()
  (← IO.getStdout).putStr answer.stdout
  (← IO.getStderr).putStr answer.stderr
  return answer.exitCode.toUInt32
