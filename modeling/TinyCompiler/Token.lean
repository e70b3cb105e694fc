import TinyCompiler.Location
import TinyCompiler.Number.Shown
import TinyCompiler.Op
import TinyCompiler.Text.Quoted

/-!
# Tokens

The words of the language: names, numbers, keywords and punctuation marks, each with the place
where it stands in the text if that is known.
-/

namespace TinyCompiler

/-! ### Keywords and marks -/

/-- A word that is no name. -/
inductive Keyword where
  | kwFun | kwLet | kwReturn | kwIf | kwElse
  deriving DecidableEq, Repr

namespace Keyword

/-- The keyword as it is written. -/
def text : Keyword → String
  | .kwFun => "fun"
  | .kwLet => "let"
  | .kwReturn => "return"
  | .kwIf => "if"
  | .kwElse => "else"

/-- The keyword's name among the kinds of tokens. -/
def name : Keyword → String
  | .kwFun => "FUN"
  | .kwLet => "LET"
  | .kwReturn => "RETURN"
  | .kwIf => "IF"
  | .kwElse => "ELSE"

/-- All keywords. -/
def all : List Keyword := [.kwFun, .kwLet, .kwReturn, .kwIf, .kwElse]

/-- The keyword that is written like this. -/
def ofText? (text : String) : Option Keyword := all.find? (·.text == text)

end Keyword

/-- A punctuation mark: an operator, the sign of assignment or a delimiter. -/
inductive Mark where
  | plus | minus | star | slash | equals
  | openParen | closeParen | openBrace | closeBrace | comma | semicolon
  deriving DecidableEq, Repr

namespace Mark

/-- The mark as it is written. -/
def char : Mark → Char
  | .plus => '+'
  | .minus => '-'
  | .star => '*'
  | .slash => '/'
  | .equals => '='
  | .openParen => '('
  | .closeParen => ')'
  | .openBrace => '{'
  | .closeBrace => '}'
  | .comma => ','
  | .semicolon => ';'

/-- The mark's name among the kinds of tokens. -/
def name : Mark → String
  | .plus => "PLUS"
  | .minus => "MINUS"
  | .star => "STAR"
  | .slash => "SLASH"
  | .equals => "EQUALS"
  | .openParen => "LPAREN"
  | .closeParen => "RPAREN"
  | .openBrace => "LBRACE"
  | .closeBrace => "RBRACE"
  | .comma => "COMMA"
  | .semicolon => "SEMICOLON"

/-- All marks. -/
def all : List Mark :=
  [.plus, .minus, .star, .slash, .equals, .openParen, .closeParen, .openBrace, .closeBrace,
    .comma, .semicolon]

/-- The mark that is written like this. -/
def ofChar? (c : Char) : Option Mark := all.find? (·.char == c)

/-- The operator a mark stands for between two operands. -/
def op? : Mark → Option Op
  | .plus => some .add
  | .minus => some .sub
  | .star => some .mul
  | .slash => some .div
  | _ => none

end Mark

/-! ### Kinds of tokens -/

/-- What sort of word a token is. -/
inductive TokenKind where
  | identifier
  | number
  | keyword (k : Keyword)
  | mark (m : Mark)
  deriving DecidableEq, Repr

namespace TokenKind

/-- The kind's name. -/
def name : TokenKind → String
  | .identifier => "IDENTIFIER"
  | .number => "NUMBER"
  | .keyword k => k.name
  | .mark m => m.name

/-- The kind's name in small letters, which stands in for a missing description. -/
def smallName (k : TokenKind) : String := String.ofList (k.name.toList.map Char.toLower)

/-- All kinds. -/
def all : List TokenKind :=
  .identifier :: .number :: Keyword.all.map .keyword ++ Mark.all.map .mark

/-- The kind of a name. -/
def ofName? (name : String) : Option TokenKind := all.find? (·.name == name)

end TokenKind

/-! ### Words and tokens -/

/-- A word of the language. -/
inductive Lexeme where
  | identifier (name : String)
  | number (value : Binary64)
  | keyword (k : Keyword)
  | mark (m : Mark)
  deriving DecidableEq, Repr

namespace Lexeme

/-- The kind of a word. -/
def kind : Lexeme → TokenKind
  | .identifier _ => .identifier
  | .number _ => .number
  | .keyword k => .keyword k
  | .mark m => .mark m

/-- Whether two words are the same word, numbers being compared as numbers. -/
def same : Lexeme → Lexeme → Bool
  | .number x, .number y => x.same y
  | .identifier x, .identifier y => x == y
  | .keyword x, .keyword y => x == y
  | .mark x, .mark y => x == y
  | _, _ => false

/-- The different words among some words, each where it occurs first. -/
def distinct (words : List Lexeme) : List Lexeme :=
  words.foldl (fun seen w => if seen.any (·.same w) then seen else seen ++ [w]) []

/-- A word as a message speaks of it. -/
def describe : Lexeme → String
  | .identifier name => "identifier '" ++ name ++ "'"
  | .number value => "number " ++ value.brief
  | .keyword k => "keyword '" ++ k.text ++ "'"
  | .mark m => "'" ++ m.char.toString ++ "'"

/-- The part of a word that its kind does not tell, as a list shows it. -/
def shownValue? : Lexeme → Option String
  | .identifier name => some (Text.quoted name)
  | .number value => some value.full
  | _ => none

end Lexeme

/-- A word at its place. -/
structure Token where
  lexeme : Lexeme
  location : Option Location
  deriving DecidableEq, Repr

namespace Token

/-- The kind of a token. -/
def kind (t : Token) : TokenKind := t.lexeme.kind

/-- Whether a token is the given mark. -/
def isMark (t : Token) (m : Mark) : Bool := t.kind == .mark m

/-- Whether a token is the given keyword. -/
def isKeyword (t : Token) (k : Keyword) : Bool := t.kind == .keyword k

/-- A token as a message speaks of it. -/
def describe (t : Token) : String := t.lexeme.describe

/-- A token as a list shows it: kind, value and place. -/
def shown (t : Token) : String :=
  let value := match t.lexeme.shownValue? with
    | some v => ", " ++ v
    | none => ""
  let place := match t.location with
    | some l => ", " ++ l.place
    | none => ""
  "Token(" ++ t.kind.name ++ value ++ place ++ ")"

/-- Whether two lists hold the same words, places set aside. -/
def sameWords : List Token → List Token → Bool
  | [], [] => true
  | s :: ss, t :: ts => s.lexeme.same t.lexeme && sameWords ss ts
  | _, _ => false

end Token

/-! ### Binding powers

An operator between two operands binds with a left and a right power. The right power is one above
the left one, so that equal operators group to the left. -/

namespace Op

/-- How tightly an operator binds its left operand. -/
def leftPower : Op → Int
  | .add | .sub => 1
  | .mul | .div => 3

/-- How tightly an operator binds its right operand. -/
def rightPower (op : Op) : Int := op.leftPower + 1

end Op

/-- How tightly a negation binds its operand: more than every operator between operands. -/
def negationPower : Int := 5

namespace TokenKind

/-- The left and right power of a token between two operands. -/
def betweenPowers? : TokenKind → Option (Int × Int)
  | .mark m => m.op?.map fun op => (op.leftPower, op.rightPower)
  | _ => none

/-- The power of a token before an operand. -/
def beforePower? : TokenKind → Option Int
  | .mark .minus => some negationPower
  | _ => none

/-- Whether a token may begin an expression. -/
def startsExpression : TokenKind → Bool
  | .identifier | .number | .mark .openParen => true
  | k => k.beforePower?.isSome

end TokenKind

end TinyCompiler
