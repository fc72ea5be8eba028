import ApiDocs.Yaml.Directive

/-!
# Tokens of a document

The tokens say where lists and maps begin and end. Inside brackets the document does so itself; in a
block the indentation does.
-/

namespace ApiDocs.Yaml

/-- The tokens of a document. -/
inductive Token
  | directive (value : Directive)
  | documentStart
  | documentEnd
  | listStart
  | mapStart
  | blockEnd
  | flowListStart
  | flowListEnd
  | flowMapStart
  | flowMapEnd
  | entry
  | flowEntry
  | key
  | value
  /-- A name for the node that follows. -/
  | anchor (name : String)
  /-- The name of a node that stands elsewhere. -/
  | alias (name : String)
  | tag (value : Tag)
  /-- A scalar, and whether it is plain, so that it may be something else than a text. -/
  | scalar (text : String) (isPlain : Bool)
  | streamEnd
  /-- The document cannot be read any further. -/
  | broken (fault : ScanFault)
deriving DecidableEq, Repr

/-- What is wrong with some tokens that do not go on as they have to. -/
def faultAt : List Token → ScanFault
  | .broken fault :: _ => fault
  | _ => .malformed

end ApiDocs.Yaml
