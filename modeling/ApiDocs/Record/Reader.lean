import ApiDocs.Record.Basic
import ApiDocs.Record.Prose

/-!
# Records from plain data

* `Datum.elements`: what a list, a text, bytes, a pair, a set or a map are gone through as;
* `NameFlags.ofDatum`, `ParameterKind.ofDatum`: bits by number, by name, or by a list of names;
* `Datum.pairs`: names with texts, from a map or a list of pairs;
* `StructuralRecord.ofDatum`, `DocumentationRecord.ofDatum`: records from maps.
-/

namespace ApiDocs

open Text

namespace Datum

/-- The items of a list or of a pair, the symbols of a text, the numbers of bytes, the members of a set, or
the keys of a map. -/
def elements (d : Datum) : Except Fault (List Datum) :=
  match d.opened with
  | list xs => .ok xs
  | pair a b => .ok [a, b]
  | set members => .ok members
  | bytes values => .ok (values.map fun b => int b.toNat)
  | text s => .ok ((symbols s.toList).map fun x => text (ofSymbols [x]))
  | map entries => .ok (entries.map (·.1))
  | d => .error (.notIterable d.fullKindName)

/-- The elements of something that may be left out. -/
def optionalElements (d : Datum) : Except Fault (List Datum) :=
  if d.isGiven then d.elements else .ok []

/-- The value of a field, null when it is left out. Only a map has fields. -/
def field (key : String) (d : Datum) : Except Fault Datum :=
  match d.opened with
  | map entries => .ok ((find? key entries).getD .null)
  | _ => .error .noField

/-- The text of a field that must be given. -/
def requiredField (key : String) (d : Datum) : Except Fault String := do
  let value ← d.field key
  if value.isGiven then value.written else .error (.missingKey key)

/-- Whether a text occurs within another. -/
def occursIn (s : List Char) : List Char → Bool
  | [] => s.isEmpty
  | c :: cs => s.isPrefixOf (c :: cs) || occursIn s cs

/-- Whether a text is a key of a map, a member of a set, an item of a list or of a pair, or a part of a text.
Bytes have no texts as parts. -/
def holds (key : String) (d : Datum) : Except Fault Bool :=
  match d.opened with
  | map entries => .ok (find? key entries).isSome
  | list xs | set xs => .ok (xs.any fun x => x.same (text key))
  | pair a b => .ok (a.same (text key) || b.same (text key))
  | bytes _ => .error .notBytes
  | text s => .ok (occursIn key.toList s.toList)
  | d => .error (.notSearchable d.fullKindName)

/-- The form in which a producer's name for a bit is looked up. -/
def bitName (d : Datum) : Except Fault String := do
  .ok ((Text.upper (strip (← d.written))).map fun c => if c == '-' then '_' else c)

end Datum

/-! ## Bits -/

/-- All bits that a list of names stands for. -/
def bitsOfNames {β : Type} [OrOp β] (table : List (String × β)) (unknown : Datum → Fault)
    (bits : β) : List Datum → Except Fault β
  | [] => .ok bits
  | d :: rest => do
    match table.lookup (← d.bitName) with
    | some b => bitsOfNames table unknown (bits ||| b) rest
    | none => .error (unknown d)

/-- The data that name bits, where a text alone is one name. -/
def bitNamesOf : Datum → Except Fault (List Datum)
  | .text s => .ok [.text s]
  | d => d.elements

/-- Flags of a name from a number, a name or several names. -/
def NameFlags.ofDatum : Datum → Except Fault NameFlags
  | .null => .ok .none
  | .bool b => .ok (.ofInt (if b then 1 else 0))
  | .int i => .ok (.ofInt i)
  | d => do bitsOfNames NameFlags.names .unknownFlag .none (← bitNamesOf d)

/-- How a parameter is passed, from a number, a name or several names. -/
def ParameterKind.ofDatum : Datum → Except Fault ParameterKind
  | .null => .ok .none
  | .bool b => .ok (.ofInt (if b then 1 else 0))
  | .int i => .ok (.ofInt i)
  | d => do bitsOfNames ParameterKind.names .unknownParameterKind .none (← bitNamesOf d)

/-! ## Pairs -/

namespace Datum

/-- Something of two elements as a pair. -/
def asPair (d : Datum) : Except Fault (Datum × Datum) :=
  match d.elements with
  | .error _ => .error (.notPair d.fullKindName)
  | .ok [a, b] => .ok (a, b)
  | .ok items => .error (.pairSize items.length)

/-- A name with its text: a map with both as fields, or a pair. -/
def namedText (d : Datum) : Except Fault (String × Option String) :=
  match d.opened with
  | map entries =>
    match find? "name" entries with
    | none => .error (.noEntry "name")
    | some name => do
      .ok (← name.written, ← ((find? "description" entries).getD .null).prose)
  | d => do
    let (name, description) ← d.asPair
    .ok (← name.written, ← description.prose)

/-- Names with texts, from a map of texts by name or a list of pairs. -/
def pairs (d : Datum) : Except Fault (List (String × Option String)) :=
  if !d.isGiven then .ok []
  else
    match d.opened with
    | map entries => entries.mapM fun e => do .ok (← e.1.written, ← e.2.prose)
    | list xs => xs.mapM namedText
    | _ => .error (.notPairs d.kindName)

end Datum

/-! ## Records -/

/-- The parameter that a map describes. -/
def ParameterShape.ofDatum (d : Datum) : Except Fault ParameterShape := do
  let type ← d.requiredField "type"
  let name ← d.field "name"
  let kind ← ParameterKind.ofDatum (← d.field "kind")
  .ok { type, name, kind }

/-- The flags under two keys, if one of the keys is there. -/
def accessorsUnder (first second : String) (d : Datum) :
    Except Fault (Option (NameFlags × NameFlags)) := do
  let isThere ← match ← d.holds first with
    | true => .ok true
    | false => d.holds second
  if isThere then
    let a ← NameFlags.ofDatum (← d.field first)
    let b ← NameFlags.ofDatum (← d.field second)
    .ok (some (a, b))
  else .ok none

/-- The flags of the accessors; those of an event take precedence. -/
def accessorsOfDatum (d : Datum) : Except Fault (NameFlags × NameFlags) := do
  let given := if d.isGiven then d else .map []
  let ofProperty ← accessorsUnder "getter" "setter" given
  let ofEvent ← accessorsUnder "adder" "remover" given
  .ok ((ofEvent <|> ofProperty).getD (.none, .none))

/-- The structural record that a map describes. -/
def StructuralRecord.ofDatum (d : Datum) : Except Fault StructuralRecord := do
  let accessors ← accessorsOfDatum (← d.field "accessor_flags")
  let kind ← d.requiredField "kind"
  let identifier ← d.requiredField "identifier"
  let genericNames ← (← (← d.field "generic_names").optionalElements).mapM Datum.written
  let flags ← NameFlags.ofDatum (← d.field "flags")
  let parameters ← (← (← d.field "parameters").optionalElements).mapM ParameterShape.ofDatum
  .ok { kind, identifier, genericNames, flags, parameters, accessors }

/-- The documentation record that a map describes. -/
def DocumentationRecord.ofDatum (d : Datum) : Except Fault DocumentationRecord := do
  let identifier ← d.requiredField "identifier"
  let prose (key : String) : Except Fault (Option String) := do (← d.field key).prose
  let summary ← prose "summary"
  let remarks ← prose "remarks"
  let exampleText ← prose "example"
  let see ← prose "see"
  let seeAlso ← prose "see_also"
  let parameters ← (← d.field "parameters").pairs
  let typeParameters ← (← d.field "type_parameters").pairs
  let exceptions ← (← d.field "exceptions").pairs
  .ok { identifier, summary, remarks, exampleText, see, seeAlso, parameters, typeParameters
        exceptions }

end ApiDocs
