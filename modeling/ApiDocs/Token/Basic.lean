import ApiDocs.Text.Symbol

/-!
# Tokens of a member id

A token is a kind, the place where it starts and the symbols it covers. Places and lengths count symbols.
-/

namespace ApiDocs

/-- The kinds of token. -/
inductive TokenKind
  | unknown
  | endOfInput
  | leftParen
  | rightParen
  | leftBracket
  | rightBracket
  | leftBrace
  | rightBrace
  | atSign
  | comma
  | colon
  | period
  | backtick
  | doubleBacktick
  | sharp
  | doubleSharp
  | name
  | number
deriving DecidableEq, Repr

/-- The name of a kind in the description of a token. -/
def TokenKind.label : TokenKind → String
  | unknown => "ERROR"
  | endOfInput => "EOI"
  | leftParen => "LEFT_PAREN"
  | rightParen => "RIGHT_PAREN"
  | leftBracket => "LEFT_BRACKET"
  | rightBracket => "RIGHT_BRACKET"
  | leftBrace => "LEFT_BRACE"
  | rightBrace => "RIGHT_BRACE"
  | atSign => "AT"
  | comma => "COMMA"
  | colon => "COLON"
  | period => "PERIOD"
  | backtick => "BACKTICK"
  | doubleBacktick => "DOUBLE_BACKTICK"
  | sharp => "SHARP"
  | doubleSharp => "DOUBLE_SHARP"
  | name => "NAME"
  | number => "NUMBER"

/-- A token: its kind, where it starts, and what it covers. -/
structure Token where
  kind : TokenKind
  start : Nat
  lexeme : List Text.Symbol
deriving DecidableEq, Repr

namespace Token

/-- The text that the token covers. -/
def text (t : Token) : String := Text.ofSymbols t.lexeme

/-- The number of symbols that the token covers. -/
def length (t : Token) : Nat := t.lexeme.length

/-- The place right behind the token. -/
def stop (t : Token) : Nat := t.start + t.length

/-- The end of the input as a token without text. -/
def endAt (start : Nat) : Token := ⟨.endOfInput, start, []⟩

/-- Kind, place, length and text in one line. -/
def describe (t : Token) : String :=
  t.kind.label ++ ": (at " ++ toString t.start ++ " +" ++ toString t.length ++ ") \"" ++ t.text
    ++ "\""

end Token

end ApiDocs
