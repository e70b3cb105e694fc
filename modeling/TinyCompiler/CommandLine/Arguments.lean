import TinyCompiler.Text.Closeness
import TinyCompiler.Text.Quoted

/-!
# Arguments of the command

The command takes one input file and some options, in any order. An option has a long name, which
two dashes introduce, and perhaps a letter. Letters may be put together behind one dash; the value
of an option is the rest of its argument, what follows an equals sign, or the next argument. After
two dashes alone everything is a file.
-/

namespace TinyCompiler.CommandLine

/-- What an option asks for. -/
inductive Wish where
  | output | tokens | outline | dump | verbose | version | help
  deriving DecidableEq, Repr

namespace Wish

/-- All options. -/
def all : List Wish := [.output, .tokens, .outline, .dump, .verbose, .version, .help]

/-- The long name of an option. -/
def longName : Wish → String
  | .output => "--output"
  | .tokens => "--tokens"
  | .outline => "--ast"
  | .dump => "--blob"
  | .verbose => "--verbose"
  | .version => "--version"
  | .help => "--help"

/-- The letter of an option. -/
def letter? : Wish → Option Char
  | .output => some 'o'
  | .verbose => some 'v'
  | _ => none

/-- Whether an option has a value. -/
def takesValue : Wish → Bool
  | .output => true
  | _ => false

end Wish

/-- Why arguments are refused. -/
inductive UsageError where
  /-- There is no such option, but there may be close ones. -/
  | noSuchOption (option : String) (close : List String)
  /-- The value of an option is missing. -/
  | needsValue (option : String)
  /-- A value was given to an option that has none. -/
  | takesNoValue (option : String)
  /-- The input file is missing. -/
  | noInput
  /-- The input file does not exist. -/
  | inputNotFound (path : String)
  /-- The input file is a directory. -/
  | inputIsDirectory (path : String)
  /-- The output file is a directory. -/
  | outputIsDirectory (path : String)
  /-- There are more files than one. -/
  | extraArguments (arguments : List String)
  /-- The input or the output is no path at all. The command breaks off and says nothing. -/
  | noPath
  deriving DecidableEq, Repr

namespace UsageError

/-- The names of close options, as a suggestion. -/
def suggestion : List String → String
  | [] => ""
  | [name] => " Did you mean " ++ name ++ "?"
  | names => " (Possible options: " ++ ", ".intercalate names ++ ")"

/-- The error as a sentence. -/
def message : UsageError → String
  | .noSuchOption option close => "No such option: " ++ option ++ suggestion close
  | .needsValue option => "Option " ++ Text.quoted option ++ " requires an argument."
  | .takesNoValue option => "Option " ++ Text.quoted option ++ " does not take a value."
  | .noInput => "Missing argument 'INPUT_FILE'."
  | .inputNotFound path =>
    "Invalid value for 'INPUT_FILE': File " ++ Text.quoted path ++ " does not exist."
  | .inputIsDirectory path =>
    "Invalid value for 'INPUT_FILE': File " ++ Text.quoted path ++ " is a directory."
  | .outputIsDirectory path =>
    "Invalid value for '-o' / '--output': File " ++ Text.quoted path ++ " is a directory."
  | .extraArguments [argument] => "Got unexpected extra argument (" ++ argument ++ ")"
  | .extraArguments arguments =>
    "Got unexpected extra arguments (" ++ " ".intercalate arguments ++ ")"
  | .noPath => ""

/-- Whether the summary of the usage stands before the error. Misused values of options go
without. -/
def showsUsage : UsageError → Bool
  | .needsValue _ | .takesNoValue _ => false
  | _ => true

end UsageError

/-! ### Reading one option -/

/-- Where the value of an option comes from. -/
inductive Value where
  /-- No option in this argument has a value. -/
  | none
  /-- The value stands in the same argument. -/
  | attached (value : String)
  /-- The value is the next argument; the option is named in complaints. -/
  | next (option : String)
  deriving DecidableEq, Repr

/-- Reads an argument by its long name; `given` is what stands after an equals sign. -/
def readLong? (name : String) (given : Option String) :
    Option (Except UsageError (List Wish × Value)) :=
  (Wish.all.find? (·.longName == name)).map fun wish =>
    match wish.takesValue, given with
    | true, some value => .ok ([wish], .attached value)
    | true, none => .ok ([wish], .next name)
    | false, some _ => .error (.takesNoValue name)
    | false, none => .ok ([wish], .none)

/-- Reads letters behind one dash, the first with a value ending the row. -/
def readLetters : List Char → Except UsageError (List Wish × Value)
  | [] => .ok ([], .none)
  | c :: rest =>
    match Wish.all.find? (·.letter? == some c) with
    | none => .error (.noSuchOption (String.ofList ['-', c]) [])
    | some wish =>
      if wish.takesValue then
        .ok ([wish], if rest.isEmpty then .next (String.ofList ['-', c])
          else .attached (String.ofList rest))
      else
        match readLetters rest with
        | .ok (wishes, value) => .ok (wish :: wishes, value)
        | .error e => .error e

/-- Reads an argument that begins with a dash: by its long name if there is such an option, and by
letters otherwise unless it begins with two dashes. -/
def readOption (argument : String) : Except UsageError (List Wish × Value) :=
  let cs := argument.toList
  let name := String.ofList (cs.takeWhile (· != '='))
  let given := match cs.dropWhile (· != '=') with
    | [] => none
    | _ :: value => some (String.ofList value)
  match readLong? name given with
  | some r => r
  | none =>
    match cs with
    | '-' :: '-' :: _ => .error (.noSuchOption name (Text.closeWords name (Wish.all.map (·.longName))))
    | _ => readLetters (cs.drop 1)

/-! ### Reading all arguments -/

/-- What the arguments ask for, in the order in which it was asked for. -/
structure Request where
  wishes : List Wish
  output : Option String
  files : List String
  deriving DecidableEq, Repr

namespace Request

/-- Nothing is asked for. -/
def empty : Request := ⟨[], none, []⟩

/-- Whether something is asked for. -/
def has (r : Request) (wish : Wish) : Bool := r.wishes.contains wish

/-- Adds wishes. -/
def add (r : Request) (wishes : List Wish) : Request := { r with wishes := r.wishes ++ wishes }

/-- Asks for an output file; the last one counts. -/
def setOutput (r : Request) (path : String) : Request := { r with output := some path }

/-- Adds files. -/
def addFiles (r : Request) (files : List String) : Request := { r with files := r.files ++ files }

/-- Whether an argument is read as an option. -/
def isOption (argument : String) : Bool :=
  match argument.toList with
  | '-' :: _ :: _ => true
  | _ => false

/-- Reads arguments one after the other. -/
def read (r : Request) : List String → Except UsageError Request
  | [] => .ok r
  | "--" :: rest => .ok (r.addFiles rest)
  | argument :: rest =>
    if isOption argument then
      match readOption argument with
      | .error e => .error e
      | .ok (wishes, .none) => (r.add wishes).read rest
      | .ok (wishes, .attached value) => ((r.add wishes).setOutput value).read rest
      | .ok (wishes, .next option) =>
        match rest with
        | [] => .error (.needsValue option)
        | value :: rest => ((r.add wishes).setOutput value).read rest
    else (r.addFiles [argument]).read rest

/-- The first of the wishes that is answered before any file is looked at. -/
def urgent? (r : Request) : Option Wish := r.wishes.find? fun w => w == .version || w == .help

end Request

end TinyCompiler.CommandLine
