import TinyCompiler.CommandLine.Arguments
import TinyCompiler.Files.Compile
import TinyCompiler.Node.Outline
import TinyCompiler.Text.Controls

/-!
# Running the command

The command compiles a file and prints its listing or writes it to a file. It can instead print the
tokens, the outline of the tree or a dump of the code, and then does only what that needs. What
happens is decided by the arguments and by what paths lead to; the answer says what is printed, what
is written, and the exit code.

What reads the arguments is kept apart from what is then done: a reader of arguments finds a job in
them, or it replies to them itself. The one that is used knows the options of the command.
-/

namespace TinyCompiler.CommandLine

/-! ### Exit codes -/

/-- What a failure says about who is to blame. -/
inductive Verdict where
  /-- The program is refused. -/
  | rejected
  /-- The input cannot be read. -/
  | unreadable
  /-- The compiler itself has failed. -/
  | internal
  deriving DecidableEq, Repr

namespace Verdict

/-- The exit code. -/
def exitCode : Verdict → Nat
  | .rejected => 1
  | .unreadable => 2
  | .internal => 3

/-- What is printed about a failure, without control sequences. A refused program's message speaks
for itself. -/
def complaint (verdict : Verdict) (text : String) : String :=
  match verdict with
  | .rejected => Text.plain text ++ "\n"
  | .unreadable => "Error: " ++ Text.plain text ++ "\n"
  | .internal => "Internal error: " ++ Text.plain text ++ "\n"

end Verdict

/-- Who is to blame for a failure. -/
def verdictOf (failure : Failure) : Verdict :=
  if failure.report?.isSome then .rejected
  else
    match failure with
    | .encoding _ | .file (.noSource _) | .file (.notFound _) => .unreadable
    | _ => .internal

/-- What is printed about a failure. -/
def complaintOf (failure : Failure) : String :=
  let text := match failure with
    | .encoding e => "input is not valid UTF-8: " ++ e.message
    | failure => failure.message
  (verdictOf failure).complaint text

/-! ### Answers -/

/-- What a run of the command does. -/
structure Answer where
  exitCode : Nat
  stdout : String
  stderr : String
  output : Option Output
  deriving DecidableEq, Repr

/-- What arguments get that no job is found in. -/
inductive Reply where
  /-- A text is shown, such as that of the help. -/
  | shown (text : String)
  /-- The arguments are refused. -/
  | refused (exitCode : Nat) (complaint : String)
  deriving DecidableEq, Repr

/-- A reply as an answer: a text is printed, and so is a complaint, but apart from the output. -/
def Reply.answer : Reply → Answer
  | .shown text => ⟨0, text, "", none⟩
  | .refused exitCode complaint => ⟨exitCode, "", complaint, none⟩

/-- How the command is used, in two lines. -/
def usageSummary : String :=
  "Usage: funcc [OPTIONS] INPUT_FILE\nTry 'funcc --help' for help.\n\n"

/-- The reply to arguments that are refused. -/
def refuse (e : UsageError) : Reply :=
  match e with
  | .noPath => .refused 1 ""
  | e =>
    let usage := if e.showsUsage then usageSummary else ""
    .refused 2 (usage ++ "Error: " ++ Text.plain e.message ++ "\n")

/-- The version of the command. -/
def versionText : String := "funcc, version 0.1.0\n"

/-- How the command is used. -/
def helpText : String :=
  joinLines [
    "Usage: funcc [OPTIONS] INPUT_FILE",
    "",
    "  Compile a funlang source file to an assembly listing.",
    "",
    "  INPUT_FILE is the funlang source file to compile.",
    "",
    "  Examples:",
    "      funcc main.fn                # Listing on stdout",
    "      funcc main.fn -o main.s      # Specify output file",
    "      funcc --ast main.fn          # Dump the syntax tree",
    "      funcc -v main.fn             # Verbose output",
    "",
    "Options:",
    "  -o, --output FILE  Output assembly file (default: stdout)",
    "  --tokens           Print the token stream and exit",
    "  --ast              Print AST and exit (for debugging)",
    "  --blob             Print the instruction stream and label table and exit",
    "  -v, --verbose      Verbose output (debug logging on stderr)",
    "  --version          Show the version and exit.",
    "  --help             Show this message and exit."]

/-! ### Stages with notes

Every stage that succeeds leaves a note, which is kept also if a later stage fails. -/

/-- A result or a failure, with the notes of the stages that succeeded. -/
structure Noted (α : Type) where
  notes : List String
  result : Except Failure α

namespace Noted

variable {α β : Type}

/-- A result of a stage without a note. -/
def silent (result : Except Failure α) : Noted α := ⟨[], result⟩

/-- A result of a stage, with a note if it succeeded. -/
def noting (result : Except Failure α) (note : α → String) : Noted α :=
  match result with
  | .ok a => ⟨[note a], .ok a⟩
  | .error e => ⟨[], .error e⟩

/-- Goes on with a further stage. -/
def andThen (n : Noted α) (next : α → Noted β) : Noted β :=
  match n.result with
  | .ok a => ⟨n.notes ++ (next a).notes, (next a).result⟩
  | .error e => ⟨n.notes, .error e⟩

/-- Changes the result. -/
def map (f : α → β) (n : Noted α) : Noted β := ⟨n.notes, n.result.map f⟩

end Noted

/-- The tokens of a text. -/
def tokensOf (file source : String) : Except Failure (List Token) :=
  (scan file source).mapError .scan

/-- The program of some tokens. -/
def programOf (tokens : List Token) : Noted Program :=
  .noting ((parse tokens).mapError .parse) fun p =>
    "Parsed " ++ toString p.functions.length ++ " function(s)"

/-- The code of a program. -/
def codeOf (program : Program) : Noted Code :=
  .noting (program.lower.mapError .code) fun c =>
    "Generated " ++ toString c.instrs.length ++ " instruction(s), " ++
      toString c.labels.length ++ " label(s), " ++ toString c.slots.length ++ " variable(s)"

/-- The listing of a text, with a note for every stage. -/
def listingOf (file source : String) : Noted String :=
  let tokens := Noted.noting (tokensOf file source) fun ts =>
    file ++ ": scanned " ++ toString ts.length ++ " token(s)"
  let code := (tokens.andThen programOf).andThen codeOf
  let lines := code.andThen fun c => .noting (Layout.standard.render c) fun ls =>
    file ++ ": rendered " ++ toString ls.length ++ " line(s)"
  lines.map joinLines

/-- The dump of a text's code. -/
def dumpOf (file source : String) : Noted String :=
  let code := ((Noted.silent (tokensOf file source)).andThen programOf).andThen codeOf
  code.map fun c => joinLines c.dump

/-- The outline of a text's tree. -/
def outlineOf (file source : String) : Noted String :=
  let program := (Noted.silent (tokensOf file source)).andThen programOf
  program.map fun p => p.toNode.outline ++ "\n"

/-- The tokens of a text, one to a line. -/
def tokenListOf (file source : String) : Noted String :=
  .silent ((tokensOf file source).map fun ts => joinLines (ts.map Token.shown))

/-! ### The run -/

/-- What the command prints or writes. -/
inductive Mode where
  | tokens | outline | dump | listing
  deriving DecidableEq, Repr

/-- What is to be done, once the arguments have been found to be right. -/
structure Job where
  mode : Mode
  verbose : Bool
  input : String
  output : Option String
  deriving DecidableEq, Repr

/-- What a request asks for: of several things to print the earliest stage wins. -/
def Request.mode (r : Request) : Mode :=
  if r.has .tokens then .tokens
  else if r.has .outline then .outline
  else if r.has .dump then .dump
  else .listing

/-- Checks the files of a request: first the output, then the input, then that there are no more.
Paths are looked up as they are given, and used in their normal form. -/
def Request.job (r : Request) (look : String → Entry) : Except UsageError Job := do
  match r.output with
  | some path =>
    match look path with
    | .directory => throw (.outputIsDirectory path)
    | .noPath => throw .noPath
    | _ => pure ()
  | none => pure ()
  match r.files with
  | [] => throw .noInput
  | input :: extra =>
    match look input with
    | .file _ =>
      if extra.isEmpty then
        return ⟨r.mode, r.has .verbose, Path.normal input, r.output.map Path.normal⟩
      else throw (.extraArguments extra)
    | .directory => throw (.inputIsDirectory input)
    | .noPath => throw .noPath
    | _ => throw (.inputNotFound input)

/-- The notes as they are printed. -/
def noteLines (verbose : Bool) (notes : List String) : String :=
  if verbose then joinLines (notes.map ("DEBUG: " ++ ·)) else ""

/-- The answer to a failure, after the notes of what succeeded. -/
def failed (notes : String) (failure : Failure) : Answer :=
  ⟨(verdictOf failure).exitCode, "", notes ++ complaintOf failure, none⟩

/-- What the text of a file is turned into. -/
def Mode.produce (mode : Mode) (file source : String) : Noted String :=
  match mode with
  | .tokens => tokenListOf file source
  | .outline => outlineOf file source
  | .dump => dumpOf file source
  | .listing => listingOf file source

/-- The answer when a listing is written to a file. -/
def Job.writeListing (job : Job) (look : String → Entry) (notes path listing : String) : Answer :=
  match (look path).checkWritable path with
  | .error e => failed notes (.file e)
  | .ok _ =>
    let done :=
      if job.verbose then Text.plain ("Compiled " ++ job.input ++ " -> " ++ path) ++ "\n" else ""
    ⟨0, "", notes ++ done, some ⟨path, listing⟩⟩

/-- Does a job. Only a listing goes to the output file. -/
def Job.run (job : Job) (look : String → Entry) : Answer :=
  match readSource look job.input with
  | .error e => failed "" e
  | .ok source =>
    let produced := job.mode.produce job.input source
    let notes := noteLines job.verbose produced.notes
    match produced.result, job.mode, job.output with
    | .error e, _, _ => failed notes e
    | .ok text, .listing, some path => job.writeListing look notes path text
    | .ok text, _, _ => ⟨0, text, notes, none⟩

/-- What reads arguments, given what paths lead to. -/
abbrev ArgumentReader := (String → Entry) → List String → Except Reply Job

/-- Reads arguments by the rules for options. -/
def readOptions : ArgumentReader := fun look arguments =>
  match Request.empty.read arguments with
  | .error e => .error (refuse e)
  | .ok request =>
    match request.urgent? with
    | some .version => .error (.shown versionText)
    | some _ => .error (.shown helpText)
    | none => (request.job look).mapError refuse

/-- Runs the command with whatever reads its arguments. -/
def runWith (reader : ArgumentReader) (look : String → Entry) (arguments : List String) : Answer :=
  match reader look arguments with
  | .error reply => reply.answer
  | .ok job => job.run look

/-- Runs the command. -/
def run (look : String → Entry) (arguments : List String) : Answer :=
  runWith readOptions look arguments

end TinyCompiler.CommandLine
