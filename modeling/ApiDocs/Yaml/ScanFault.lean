import ApiDocs.Fault

/-!
# Faults of the layout of a document

Why a document cannot be cut into tokens, or its tokens cannot be put together to a value.
-/

namespace ApiDocs.Yaml

/-- What is wrong with the layout of a document. -/
inductive ScanFault
  | malformed
  /-- A number is too great for a character. -/
  | noCharacter (number : Nat)
  /-- A number of a directive has too many digits. -/
  | longNumber (digits : Nat)
deriving DecidableEq, Repr, Inhabited

namespace ScanFault

/-- The fault of the document. -/
def fault : ScanFault → Fault
  | malformed => .malformedDocument
  | noCharacter number => .noCharacter number
  | longNumber digits => .longNumber digits

/-- What is there, where it must be there. -/
def require {α : Type} : Option α → Except ScanFault α
  | some a => .ok a
  | none => .error malformed

theorem require_eq_ok {α : Type} {x : Option α} {a : α} (h : require x = .ok a) : x = some a := by
  cases x with
  | none => cases h
  | some b => cases h; rfl

end ScanFault

end ApiDocs.Yaml
