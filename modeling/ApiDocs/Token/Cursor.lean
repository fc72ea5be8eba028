import ApiDocs.Token.Lexer

/-!
# A cursor over the tokens of a text

A cursor delivers one token after another and takes back the last one it delivered.

* `Cursor.next`: the token taken back, if there is one, else the next token of the text;
* `Cursor.unget`: the token delivered last will be delivered once more.
-/

namespace ApiDocs

open Token

/-- A place in a text, the token delivered last, and whether that token was taken back. -/
structure Cursor where
  ahead : List Text.Symbol
  position : Nat
  current : Token
  isReturned : Bool
deriving Repr

namespace Cursor

/-- Nothing is delivered at the start; the end of input at place zero stands for it. -/
def ofText (text : String) : Cursor := ⟨Text.symbols text.toList, 0, Token.endAt 0, false⟩

/-- Moves on by one token; what it delivers is `current`. -/
def next (c : Cursor) : Cursor :=
  if c.isReturned then { c with isReturned := false }
  else
    let (t, rest) := scanOne c.position c.ahead
    ⟨rest, t.stop, t, false⟩

/-- Takes back the token delivered last. -/
def unget (c : Cursor) : Cursor := { c with isReturned := true }

end Cursor

end ApiDocs
