import TinyCompiler.Code.Listing
import TinyCompiler.Program.Lowering
import TinyCompiler.Program.Reader

/-!
# From source text to listing

The way of a text through all stages. The first stage that fails decides the failure.
-/

namespace TinyCompiler

/-- A compiled text with everything that was made on the way. -/
structure Compilation where
  tokens : List Token
  program : Program
  code : Code
  lines : List String

/-- Lines as one text, each ended by a line feed. -/
def joinLines (lines : List String) : String := String.join (lines.map (· ++ "\n"))

/-- The listing as one text. -/
def Compilation.assembly (c : Compilation) : String := joinLines c.lines

/-- Compiles a text by a layout that is taken as it is. -/
def compileWith (layout : Layout) (file source : String) : Except Failure Compilation := do
  let tokens ← (scan file source).mapError .scan
  let program ← (parse tokens).mapError .parse
  let code ← program.lower.mapError .code
  let lines ← layout.render code
  return ⟨tokens, program, code, lines⟩

/-- Compiles a text. The layout is checked before anything else. -/
def compile (layout : Layout) (file source : String) : Except Failure Compilation := do
  layout.validate.mapError .options
  compileWith layout file source

end TinyCompiler
