import ApiDocs.Datum.Text
import ApiDocs.Identifier.MemberId
import ApiDocs.Text.Case

/-!
# Faults

Everything that can be wrong with an identifier, a record, a collection or the settings, as a cause.
`Fault.message` is the one place where a cause gets its words.
-/

namespace ApiDocs

open Text

/-- Why a step could not be done. -/
inductive Fault
  /-- A text is no member id. -/
  | parse (fault : ParseFault)
  /-- Two declarations have one canonical identity. -/
  | duplicate (key : String)
  /-- A member stands outside of every type. -/
  | orphan (member : String)
  | unknownKind (label : String)
  /-- The names given for generic parameters are not as many as the parameters. -/
  | genericCount (given declared : Nat)
  | missingKey (key : String)
  | unknownFlag (name : Datum)
  | unknownParameterKind (name : Datum)
  | unknownLevel (name : String)
  /-- Something else than two things was to be taken as a pair. -/
  | pairSize (size : Nat)
  | noEntry (key : String)
  | notPairs (kindName : String)
  | notPair (kindName : String)
  | notIterable (kindName : String)
  | notSearchable (kindName : String)
  /-- Something that is no text stands where only a text can be used. -/
  | notText
  | notHashable
  | notOrdered
  | notMember
  /-- A field was asked of something that has none. -/
  | noField
  /-- Something was to be found in a list by a key. -/
  | noKeys
  /-- A text was to be found among bytes. -/
  | notBytes
  /-- A list lies within itself where its texts are wanted. -/
  | endless
  /-- A collection was to be changed in place. -/
  | readOnly
  | isDirectory (path : String)
  | noFile (path : String)
  /-- A path, or a part of it, has more bytes than it may have. -/
  | longName (path : String)
  /-- A null character stands in a path under which something is to be written. -/
  | nullInPath
  /-- Halves stand from one place up to another in a path under which something is to be written. -/
  | nameless (half : Symbol) (start stop : Nat)
  /-- A file stands where a directory is needed. -/
  | fileExists
  /-- A file stands on the way to a directory. -/
  | notDirectory
  /-- A document breaks the rules of its format. -/
  | malformedDocument
  /-- A number has too many digits to be read. -/
  | longNumber (digits : Nat)
  /-- A number has too many digits to be written. -/
  | unwritableNumber
  /-- A text is no whole number in a base. -/
  | notWhole (base : Nat) (text : String)
  /-- A text is no number with a point. -/
  | notFloat (text : String)
  /-- A number is written by nothing. -/
  | emptyNumber
  /-- A number of sixtieths has so many parts that the unit of the first is no finite number. -/
  | manySixtieths
  /-- A text is no timestamp. -/
  | notTimestamp
  /-- A number is too great for a character. -/
  | noCharacter (number : Nat)
  /-- There is no such day or time. -/
  | noTimestamp (fault : Calendar.Fault)
deriving Inhabited

namespace Fault

/-- The wording of a fault. -/
def message : Fault → String
  | parse fault => fault.message
  | duplicate key => "Duplicate canonical identity: " ++ key
  | orphan member => "Member has no containing type: " ++ member
  | unknownKind label => quoted label ++ " is not a valid MemberKind"
  | genericCount given declared =>
    toString given ++ " generic names given for " ++ toString declared
      ++ " declared generic parameters"
  | missingKey key => "Record is missing required key '" ++ key ++ "'"
  | unknownFlag name => "Unknown name flag: " ++ name.shown
  | unknownParameterKind name => "Unknown parameter kind: " ++ name.shown
  | unknownLevel name => "Unknown level: " ++ quoted name
  | pairSize size =>
    if size < 2 then "not enough values to unpack (expected 2, got " ++ toString size ++ ")"
    else "too many values to unpack (expected 2)"
  | noEntry key => quoted key
  | notPairs kindName => "Expected a mapping or a list of pairs, got " ++ kindName
  | notPair kindName => "cannot unpack non-iterable " ++ kindName ++ " object"
  | notIterable kindName => "'" ++ kindName ++ "' object is not iterable"
  | notSearchable kindName => "argument of type '" ++ kindName ++ "' is not iterable"
  | notText => "a text was expected"
  | notHashable => "a scalar was expected"
  | notOrdered => "values of one kind were expected"
  | notMember => "Not a member entity: TypeEntity"
  | noField => "a mapping was expected"
  | noKeys => "a list has no keys"
  | notBytes => "a bytes-like object is required, not 'str'"
  | endless => "maximum recursion depth exceeded"
  | readOnly => "TypeCollection is immutable; use add_type/add_types instead"
  | isDirectory path => "[Errno 21] Is a directory: " ++ quoted path
  | noFile path => "[Errno 2] No such file or directory: " ++ quoted path
  | longName path => "[Errno 36] File name too long: " ++ quoted path
  | nullInPath => "embedded null byte"
  | nameless half start stop =>
    "'utf-8' codec can't encode " ++ (if stop - start < 2 then
        "character '" ++ String.ofList (escapeNumber half.number) ++ "' in position " ++ toString start
      else "characters in position " ++ toString start ++ "-" ++ toString (stop - 1))
      ++ ": surrogates not allowed"
  | fileExists => "a file stands in the place of a directory"
  | notDirectory => "a file stands on the way to a directory"
  | malformedDocument => "<yaml error>"
  | longNumber digits => Decimal.limitMessage digits
  | unwritableNumber => Decimal.limitMessage none
  | notWhole base text =>
    "invalid literal for int() with base " ++ toString base ++ ": "
      ++ String.ofList ((quoted text).toList.take 200)
  | notFloat text => "could not convert string to float: " ++ quoted text
  | emptyNumber => "string index out of range"
  | manySixtieths => "int too large to convert to float"
  | notTimestamp => "a timestamp was expected"
  | noCharacter _ => "chr() arg not in range(0x110000)"
  | noTimestamp fault => fault.message

/-- Whether the fault lies in what a record says, so that it condemns the source of the record and
nothing else. -/
def isOfRecord : Fault → Bool
  | parse _ | duplicate _ | orphan _ | unknownKind _ | genericCount .. | missingKey _
  | unknownFlag _ | unknownParameterKind _ | unknownLevel _ | pairSize _ | readOnly => true
  | _ => false

end Fault

/-- A producer's label for a kind; some kinds have several. -/
def MemberKind.ofLabel (label : String) : Except Fault MemberKind :=
  let key := Text.lower (strip label)
  if key ∈ ["constructor", "ctor", "operator"] then .ok .method
  else if key ∈ ["class", "struct", "interface", "enum", "delegate"] then .ok .type
  else
    match MemberKind.all.find? (·.label == key) with
    | some kind => .ok kind
    | none => .error (.unknownKind key)

/-- A letter alone is the prefix of a kind. -/
def MemberKind.ofPrefix? (written : String) : Option MemberKind :=
  match written.toList with
  | [c] => MemberKind.ofLetter? c
  | _ => none

end ApiDocs
