import ApiDocs.Identifier.Parser
import ApiDocs.Text.Blank

/-!
# Member ids

A member id is an identifier behind a letter for the kind of what it names and a colon. Blanks around
it do not count, but the places of faults do count those in front.

* `MemberKind.ofLetter?`: the kind that a letter stands for;
* `MemberId.parse`: kind and identifier of a member id.
-/

namespace ApiDocs

/-- The kinds of documented declarations. -/
inductive MemberKind
  | type
  | method
  | field
  | property
  | event
deriving DecidableEq, Repr

namespace MemberKind

/-- The name of a kind. -/
def label : MemberKind → String
  | type => "type"
  | method => "method"
  | field => "field"
  | property => "property"
  | event => "event"

/-- All kinds. -/
def all : List MemberKind := [type, method, field, property, event]

/-- The letter that stands for a kind in a member id. -/
def letter : MemberKind → Char
  | type => 'T'
  | method => 'M'
  | field => 'F'
  | property => 'P'
  | event => 'E'

/-- The kind that a letter stands for. -/
def ofLetter? (c : Char) : Option MemberKind := all.find? (·.letter == c)

/-- The kind that a symbol stands for, if it is a letter. -/
def ofSymbol? : Text.Symbol → Option MemberKind
  | .char c => ofLetter? c
  | .half _ => none

theorem ofLetter?_letter (k : MemberKind) : ofLetter? k.letter = some k := by cases k <;> rfl

end MemberKind

/-- A kind of declaration and its identifier. -/
structure MemberId where
  kind : MemberKind
  identifier : Identifier

namespace MemberId

open Text

/-- The member id that a text writes. -/
def parse (text : String) : Except ParseFault MemberId :=
  let stripped := stripStart text.toList
  let start := text.length - stripped.length
  match symbols (stripEnd stripped) with
  | letter :: .char ':' :: body =>
    match MemberKind.ofSymbol? letter with
    | none => .error (.name ⟨.expected (.knownKind (ofSymbols [letter, .char ':'])), start⟩)
    | some kind =>
      match Identifier.parse (ofSymbols body) (kind == .method) with
      | .error e => .error (e.shift (start + 2))
      | .ok identifier => .ok ⟨kind, identifier⟩
  | _ => .error (.name ⟨.expected .kindPrefix, start⟩)

end MemberId

end ApiDocs
