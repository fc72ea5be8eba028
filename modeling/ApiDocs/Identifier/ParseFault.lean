import ApiDocs.Decimal.Limit
import ApiDocs.Identifier.Path
import ApiDocs.Text.Quoted

/-!
# Faults of member ids

Why a text is no member id: what was expected at a place, or a number out of range.
-/

namespace ApiDocs

/-- What a member id has to go on with. -/
inductive Expectation
  | memberName
  | arity (mark : Mark)
  | specialName
  | classSpecialName
  | interfaceName
  | rightParen
  | dimension
  | dimensionColon
  | rightBracket
  | genericIndex (mark : Mark)
  | typeName
  | rightBrace
  | endOfName
  | endOfType
  | kindPrefix
  | knownKind (written : String)
deriving DecidableEq, Repr

/-- The wording of an expectation. -/
def Expectation.message : Expectation → String
  | memberName => "Missing class or method name"
  | arity mark => "Count of generic arguments after " ++ mark.text
  | specialName => "Missing ctor or other special name after '#'"
  | classSpecialName => "Missing ctor or other special name after '##'"
  | interfaceName => "Missing namespace/interface name after '#'"
  | rightParen => "Missing right parenthesis for method parameters"
  | dimension => "Missing number in array brackets"
  | dimensionColon => "Missing ':' in array brackets"
  | rightBracket => "Missing right bracket ']' after array"
  | genericIndex mark => "Missing generic argument number after " ++ mark.text
  | typeName => "Missing type name"
  | rightBrace => "Missing '\x7d' after generic arguments"
  | endOfName => "Unknown garbage at end of name"
  | endOfType => "Unknown garbage at end of type"
  | kindPrefix => "Missing member kind prefix such as 'T:' or 'M:'"
  | knownKind written => "Unsupported member kind prefix '" ++ written ++ "'"

/-- What is wrong at a place. -/
inductive NameFault
  /-- A character that begins no token. -/
  | unrecognized (text : String)
  | expected (what : Expectation)
  /-- A reference behind the last of the generic parameters declared with its mark. -/
  | outOfRange (index declared : Nat)
deriving DecidableEq, Repr

/-- The wording of a fault, its place apart. -/
def NameFault.message : NameFault → String
  | unrecognized text => "Unrecognized character " ++ Text.quoted text
  | expected what => what.message
  | outOfRange index declared =>
    "Invalid generic argument index " ++ toString index ++ " (only " ++ toString declared
      ++ " declared)"

/-- A fault and the place of the token it is found at. -/
structure NameError where
  fault : NameFault
  offset : Nat
deriving DecidableEq, Repr

/-- The wording of a fault with its place. -/
def NameError.message (e : NameError) : String :=
  e.fault.message ++ " at character " ++ toString e.offset

/-- Why a text is no member id. -/
inductive ParseFault
  | name (error : NameError)
  /-- A number of too many digits to be read. -/
  | longNumber (digits : Nat)
deriving DecidableEq, Repr

namespace ParseFault

/-- The wording of a fault. -/
def message : ParseFault → String
  | name error => error.message
  | longNumber digits => Decimal.limitMessage digits

/-- The fault with the place of its token moved; a number too long has none. -/
def shift (distance : Nat) : ParseFault → ParseFault
  | name error => name { error with offset := error.offset + distance }
  | longNumber digits => longNumber digits

end ParseFault

end ApiDocs
