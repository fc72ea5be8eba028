import ApiDocs.Text.Hex
import ApiDocs.Text.Printable
import ApiDocs.Text.Symbol

/-!
# Quoted text

How a message quotes a text: between single quotes, or between double quotes when the text holds a
single quote and no double one. The quote in use, the backslash, the line feed, the carriage return
and the tab are escaped by a backslash; any other symbol that is not printable by its number in two, four
or eight hexadecimal digits.
-/

namespace ApiDocs.Text

/-- The single quote. -/
def singleQuote : Char := Char.ofNat 0x27

/-- The double quote. -/
def doubleQuote : Char := Char.ofNat 0x22

/-- The quote that a text is put between. -/
def quoteFor (cs : List Char) : Char :=
  if cs.contains singleQuote && !cs.contains doubleQuote then doubleQuote else singleQuote

/-- A number behind a backslash, in the least of three widths that holds it. -/
def escapeNumber (n : Nat) : List Char :=
  if n < 0x100 then '\\' :: 'x' :: hexDigits 2 n
  else if n < 0x10000 then '\\' :: 'u' :: hexDigits 4 n
  else '\\' :: 'U' :: hexDigits 8 n

/-- One symbol inside a quoted text. -/
def escapeQuoted (quote : Char) : Symbol → List Char
  | .half place => escapeNumber (Symbol.half place).number
  | .char c =>
    if c == quote || c == '\\' then ['\\', c]
    else if c == '\n' then ['\\', 'n']
    else if c == '\r' then ['\\', 'r']
    else if c == '\t' then ['\\', 't']
    else if isPrintable c then [c]
    else escapeNumber c.toNat

/-- A text between quotes. -/
def quoted (s : String) : String :=
  let quote := quoteFor s.toList
  String.ofList (quote :: (symbols s.toList).flatMap (escapeQuoted quote) ++ [quote])

end ApiDocs.Text
