import TinyCompiler.Text.Printable

/-!
# Quoted text

The quoted form of a text shows every character unambiguously. The quote is a single quote unless
the text has single quotes and no double quote. The quote itself and the backslash are escaped,
line ends and tabs have their short escapes, and any other character that cannot be shown is
spelled by its code point in lower-case hexadecimal.
-/

namespace TinyCompiler.Text

/-- A number in lower-case hexadecimal, filled up with zeros to a width. -/
def hexadecimal (width n : Nat) : List Char := (Nat.toDigits 16 n).leftpad width '0'

/-- A number in upper-case hexadecimal, filled up with zeros to a width. -/
def hexadecimalCapitals (width n : Nat) : List Char := (hexadecimal width n).map Char.toUpper

/-- A character that cannot be shown, spelled by its code point. -/
def spelled (c : Char) : List Char :=
  if c.toNat < 0x100 then '\\' :: 'x' :: hexadecimal 2 c.toNat
  else if c.toNat < 0x10000 then '\\' :: 'u' :: hexadecimal 4 c.toNat
  else '\\' :: 'U' :: hexadecimal 8 c.toNat

/-- How a character stands inside quotes. -/
def escaped (quote c : Char) : List Char :=
  if c == quote || c == '\\' then ['\\', c]
  else if c == '\n' then ['\\', 'n']
  else if c == '\r' then ['\\', 'r']
  else if c == '\t' then ['\\', 't']
  else if isPrintable c then [c]
  else spelled c

/-- The quote a text is given: double only where it saves escaping single quotes. -/
def quoteFor (text : List Char) : Char :=
  if text.contains '\'' && !text.contains '"' then '"' else '\''

/-- The quoted form of a text. -/
def quoted (text : String) : String :=
  let quote := quoteFor text.toList
  String.ofList (quote :: text.toList.flatMap (escaped quote) ++ [quote])

end TinyCompiler.Text
