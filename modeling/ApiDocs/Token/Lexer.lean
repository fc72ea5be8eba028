import ApiDocs.Text.Letter
import ApiDocs.Token.Basic

/-!
# Lexer of member ids

Control characters are skipped; every other symbol belongs to exactly one token.

* `firstLexeme`: the kind and extent of the token that begins at a symbol;
* `scanOne`: the next token with what is left behind it, the end of input repeated for ever;
* `scan`, `tokenize`: all tokens up to and with the end of input.

A name, a number and a doubled mark are taken as long as possible. A symbol that begins no token is a
token of its own, of kind `unknown`.
-/

namespace ApiDocs

open Text

namespace Token

/-- The kind of a character that is always a token by itself. -/
def punctuation? : Char → Option TokenKind
  | '(' => some .leftParen
  | ')' => some .rightParen
  | '[' => some .leftBracket
  | ']' => some .rightBracket
  | '{' => some .leftBrace
  | '}' => some .rightBrace
  | '@' => some .atSign
  | '.' => some .period
  | ',' => some .comma
  | ':' => some .colon
  | _ => none

/-- The mark of a type's generic parameters, doubled for a method's. -/
def graveAccent : Char := Char.ofNat 0x60

/-- The single and doubled kinds of a character that may be doubled. -/
def doubling? (c : Char) : Option (TokenKind × TokenKind) :=
  if c == '#' then some (.sharp, .doubleSharp)
  else if c == graveAccent then some (.backtick, .doubleBacktick)
  else none

/-- Whether the lexer passes over a symbol between tokens. -/
def isSkipped (x : Symbol) : Bool := x.passes fun c => c.toNat < 0x20

/-- The token that begins at a character `c`, before `rest`: its kind and what it takes of `rest`. -/
def lexemeAt (c : Char) (rest : List Symbol) : TokenKind × List Symbol :=
  match punctuation? c with
  | some kind => (kind, [])
  | none =>
    match doubling? c with
    | some (single, double) =>
      if rest.head? == some (.char c) then (double, [.char c]) else (single, [])
    | none =>
      if isDigit c then (.number, rest.takeWhile (·.passes isDigit))
      else if isNameStart c then (.name, rest.takeWhile (·.passes isNameRest))
      else (.unknown, [])

/-- The token that begins at `x`, before `rest`: its kind and what it takes of `rest`. -/
def firstLexeme (x : Symbol) (rest : List Symbol) : TokenKind × List Symbol :=
  match x with
  | .char c => lexemeAt c rest
  | .half _ => (.unknown, [])

/-- What stands behind the token that begins at `x`. -/
def restAfter (x : Symbol) (rest : List Symbol) : List Symbol :=
  rest.drop (firstLexeme x rest).2.length

theorem length_restAfter_le (x : Symbol) (rest : List Symbol) :
    (restAfter x rest).length ≤ rest.length := by
  simp [restAfter]

/-- The next token of `xs`, which begin at `start`, and what stands behind it. -/
def scanOne (start : Nat) : List Symbol → Token × List Symbol
  | [] => (endAt start, [])
  | x :: xs =>
    if isSkipped x then scanOne (start + 1) xs
    else
      let (kind, more) := firstLexeme x xs
      (⟨kind, start, x :: more⟩, restAfter x xs)

/-- All tokens of `xs`, which begin at `start`. -/
def scan (start : Nat) : List Symbol → List Token
  | [] => [endAt start]
  | x :: xs =>
    if isSkipped x then scan (start + 1) xs
    else
      let (kind, more) := firstLexeme x xs
      let t : Token := ⟨kind, start, x :: more⟩
      t :: scan t.stop (restAfter x xs)
termination_by xs => xs.length
decreasing_by
  · simp
  · have := length_restAfter_le x xs
    simp only [List.length_cons]
    omega

/-- All tokens of a text. -/
def tokenize (text : String) : List Token := scan 0 (symbols text.toList)

end Token

end ApiDocs
