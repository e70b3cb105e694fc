import TinyCompiler.Node
import TinyCompiler.Text.Utf8
import TinyCompiler.Token

/-!
# What can go wrong

Every failure is a cause with the facts that its message needs. Failures that blame the program are
worded as reports: a description, the place it is about, and a hint. All other failures are worded
as one sentence. All wording is in this module.
-/

namespace TinyCompiler

/-! ### Reports -/

/-- A complaint about a program. -/
structure Report where
  description : String
  location : Option Location
  hint : Option String
  deriving DecidableEq, Repr

/-- The text of a report: place and description, then the hint on a line of its own unless it is
empty. -/
def Report.text (r : Report) : String :=
  let place := match r.location with
    | some l => l.text ++ ": "
    | none => ""
  let hint := match r.hint with
    | some h => if h.isEmpty then "" else "\nhint: " ++ h
    | none => ""
  place ++ "error: " ++ r.description ++ hint

/-- The hint that says what was expected, unless nothing is said about it. -/
def expectationHint (expected : Option String) : Option String :=
  match expected with
  | some e => if e.isEmpty then none else some ("expected " ++ e)
  | none => none

/-! ### Scanning -/

/-- Why characters are no token. -/
inductive ScanFault where
  /-- A character that belongs to no token. -/
  | strayCharacter (c : Char)
  /-- A numeral without a value. -/
  | badNumeral (text : String)
  /-- A comment that no line feed ends. -/
  | openComment
  deriving DecidableEq, Repr

/-- Characters that are no token, and where they begin. -/
structure ScanError where
  fault : ScanFault
  location : Option Location
  deriving DecidableEq, Repr

/-- A text of this length was given for a single character. -/
structure NotCharacter where
  length : Nat
  deriving DecidableEq, Repr

/-- The error as a sentence. -/
def NotCharacter.message (e : NotCharacter) : String :=
  "ord() expected a character, but string of length " ++ toString e.length ++ " found"

/-- The error about a stray character that is given as a text. -/
def ScanError.ofStray (text : String) (location : Option Location) :
    Except NotCharacter ScanError :=
  match text.toList with
  | [c] => .ok ⟨.strayCharacter c, location⟩
  | cs => .error ⟨cs.length⟩

/-- What is said about characters that are no token. -/
def ScanError.report (e : ScanError) : Report :=
  match e.fault with
  | .strayCharacter c =>
    ⟨"unexpected character " ++ Text.quoted c.toString ++
      " (U+" ++ String.ofList (Text.hexadecimalCapitals 4 c.toNat) ++ ")", e.location, none⟩
  | .badNumeral text =>
    ⟨"invalid numeric literal '" ++ text ++ "'", e.location,
      some "numeric literals use the digits 0-9 with an optional '.'"⟩
  | .openComment =>
    ⟨"unexpected end of file inside comment", e.location,
      some "terminate the '//' comment with a newline"⟩

/-! ### Reading a program -/

/-- Why tokens are no program. -/
inductive ParseError where
  /-- A token that nothing can continue with. -/
  | unexpectedToken (token : Token) (expected : Option String)
  /-- The tokens end too early. -/
  | unexpectedEnd (expected : Option String)
  deriving DecidableEq, Repr

/-- What is said about tokens that are no program. -/
def ParseError.report : ParseError → Report
  | .unexpectedToken token expected =>
    ⟨"unexpected token " ++ token.describe, token.location, expectationHint expected⟩
  | .unexpectedEnd expected => ⟨"unexpected end of input", none, expectationHint expected⟩

/-! ### Trees that are not sensible -/

/-- What a tree turns out to lack. -/
inductive TreeError where
  /-- A node must stand here, and the place is empty. -/
  | noNode
  /-- A statement must stand here, and the place is empty. -/
  | noStatement
  /-- The place of an operator is empty. -/
  | noOperator
  /-- The place of a row of parts is empty. -/
  | noRow
  /-- A node that is no program stands for one. -/
  | notProgram (kind : NodeKind)
  /-- A node without a name stands for a function. -/
  | unnamed (kind : NodeKind)
  /-- A node without a body stands for a function. -/
  | bodiless (kind : NodeKind)
  deriving DecidableEq, Repr

namespace TreeError

/-- The sentence that something of a kind has no such part. -/
def lacks (kind : NodeKind) (part : String) : String :=
  "'" ++ kind.name ++ "' object has no attribute '" ++ part ++ "'"

/-- The error as a sentence. -/
def message : TreeError → String
  | .noNode => lacks .missing "__dict__"
  | .noStatement => lacks .missing "location"
  | .noOperator => lacks .missing "symbol"
  | .noRow => "'" ++ NodeKind.name .missing ++ "' object is not iterable"
  | .notProgram kind => lacks kind "functions"
  | .unnamed kind => lacks kind "name"
  | .bodiless kind => lacks kind "body"

end TreeError

/-! ### Making code -/

/-- Why no code is made. -/
inductive CodeError where
  /-- A part of the tree for which there is no code. -/
  | unsupported (construct : String) (location : Option Location) (alternative : Option String)
  /-- A label that marks an instruction already. -/
  | duplicateLabel (label : String) (first : Int)
  /-- A label that is used and marks nothing, and the bound labels of similar names. -/
  | unresolvedLabel (label : String) (similar : List String)
  /-- An infinite constant, which has no whole part. -/
  | infiniteConstant
  /-- A constant that is no number. -/
  | undefinedConstant
  /-- A tree that is not sensible. -/
  | malformed (e : TreeError)
  deriving DecidableEq, Repr

/-- The hint that suggests other names, at most three. -/
def similarHint (similar : List String) : Option String :=
  if similar.isEmpty then none
  else
    let names := (similar.take 3).map fun name => "'" ++ name ++ "'"
    some ("did you mean " ++ ", ".intercalate names ++ "?")

/-- What is said about the program, if it is to blame. -/
def CodeError.report? : CodeError → Option Report
  | .unsupported construct location alternative =>
    some ⟨"unsupported construct: " ++ construct, location, alternative⟩
  | .duplicateLabel label first =>
    some ⟨"duplicate label '" ++ label ++ "'", none,
      some ("'" ++ label ++ "' is already bound to instruction " ++ toString first)⟩
  | .unresolvedLabel label similar =>
    some ⟨"unresolved label '" ++ label ++ "'", none, similarHint similar⟩
  | .infiniteConstant | .undefinedConstant | .malformed _ => none

/-- The error as a sentence. -/
def CodeError.message (e : CodeError) : String :=
  match e.report? with
  | some r => r.text
  | none =>
    match e with
    | .infiniteConstant => "cannot convert float infinity to integer"
    | .malformed e => e.message
    | _ => "cannot convert float NaN to integer"

/-! ### Printing code -/

/-- Why code cannot be printed. -/
inductive ListingError where
  /-- Something that is no instruction stands among the instructions. -/
  | notInstruction (shown : String)
  /-- Something that is no operand stands in an instruction. -/
  | notOperand (shown : String)
  /-- An operator that has no instruction with one operand. -/
  | noMnemonic (op : Op)
  /-- The operator of an instruction with two operands is missing. -/
  | noOperator
  /-- A number that has more digits than are printed. -/
  | longNumber (maxDigits : Nat)
  deriving DecidableEq, Repr

/-- The error as a sentence. -/
def ListingError.message : ListingError → String
  | .notInstruction shown => "not an instruction: " ++ shown
  | .notOperand shown => "not an operand location: " ++ shown
  | .noMnemonic op => "no mnemonic for unary " ++ op.name
  | .noOperator => "None"
  | .longNumber maxDigits =>
    "Exceeds the limit (" ++ toString maxDigits ++ " digits) for integer string conversion; " ++
      "use sys.set_int_max_str_digits() to increase the limit"

/-! ### Options and files -/

/-- Why options are refused. -/
inductive OptionsError where
  | slotSize (size : Int)
  | noFrameRegister
  deriving DecidableEq, Repr

/-- The error as a sentence. -/
def OptionsError.message : OptionsError → String
  | .slotSize size => "slot_size must be positive, got " ++ toString size
  | .noFrameRegister => "frame_register must not be empty"

/-- Why a file cannot be read or written. -/
inductive FileError where
  /-- There is no such source file. -/
  | noSource (path : String)
  /-- The file, or the directory it would be in, does not exist. -/
  | notFound (path : String)
  /-- The path leads to a directory. -/
  | isDirectory (path : String)
  /-- The path leads through a file. -/
  | throughFile (path : String)
  /-- The path, or a part of it, is longer than paths can be. -/
  | tooLong (path : String)
  /-- A path with a null character in it, which leads nowhere. -/
  | nullCharacter
  deriving DecidableEq, Repr

/-- The error as a sentence. -/
def FileError.message : FileError → String
  | .noSource path => "Source file not found: " ++ path
  | .notFound path => "[Errno 2] No such file or directory: " ++ Text.quoted path
  | .isDirectory path => "[Errno 21] Is a directory: " ++ Text.quoted path
  | .throughFile path => "[Errno 20] Not a directory: " ++ Text.quoted path
  | .tooLong path => "[Errno 36] File name too long: " ++ Text.quoted path
  | .nullCharacter => "embedded null byte"

/-! ### All failures -/

/-- Anything that can go wrong between a source text and its listing, or with what is made by hand. -/
inductive Failure where
  | scan (e : ScanError)
  | parse (e : ParseError)
  | code (e : CodeError)
  | listing (e : ListingError)
  | options (e : OptionsError)
  | file (e : FileError)
  | encoding (e : Text.EncodingError)
  | tree (e : TreeError)
  | character (e : NotCharacter)
  deriving DecidableEq, Repr

namespace Failure

/-- The report of a failure for which the program is to blame. -/
def report? : Failure → Option Report
  | .scan e => some e.report
  | .parse e => some e.report
  | .code e => e.report?
  | _ => none

/-- The failure as text. -/
def message : Failure → String
  | .scan e => e.report.text
  | .parse e => e.report.text
  | .code e => e.message
  | .listing e => e.message
  | .options e => e.message
  | .file e => e.message
  | .encoding e => e.message
  | .tree e => e.message
  | .character e => e.message

end Failure

end TinyCompiler
