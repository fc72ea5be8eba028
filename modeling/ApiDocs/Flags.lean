/-!
# Flags of names and parameters

Visibility, modifiers and kind of a declaration, and the way an argument is passed, are sets of bits.

* `NameFlags.overlaps`: two sets have a bit in common;
* `NameFlags.ofInt`: a negative number is the complement of its bits among the known ones, or, when it is
  out of their range, among as many more as it takes to write it.
-/

namespace ApiDocs

/-- How many binary digits a number has. -/
def bitLength (n : Nat) : Nat := if n = 0 then 0 else n.log2 + 1

/-- The bits of a whole number, where `known` has all known bits set. -/
def bitsOfInt (known : Nat) : Int → Nat
  | .ofNat n => n
  | .negSucc n => if n ≤ known then known - n else 1 <<< bitLength (n + 1) - (n + 1)

/-- A set of bits on the name of a declaration. -/
structure NameFlags where
  bits : Nat
deriving DecidableEq, Inhabited, Repr

namespace NameFlags

/-! ## Single bits -/

/-- No bit at all. -/
def none : NameFlags := ⟨0⟩
def privateBit : NameFlags := ⟨1 <<< 0⟩
def protectedBit : NameFlags := ⟨1 <<< 1⟩
def internalBit : NameFlags := ⟨1 <<< 2⟩
def publicBit : NameFlags := ⟨1 <<< 3⟩
def staticBit : NameFlags := ⟨1 <<< 4⟩
def sealedBit : NameFlags := ⟨1 <<< 5⟩
def abstractBit : NameFlags := ⟨1 <<< 6⟩
def virtualBit : NameFlags := ⟨1 <<< 7⟩
def newBit : NameFlags := ⟨1 <<< 8⟩
def constBit : NameFlags := ⟨1 <<< 9⟩
def readonlyBit : NameFlags := ⟨1 <<< 10⟩
def methodBit : NameFlags := ⟨1 <<< 16⟩
def classConstructorBit : NameFlags := ⟨1 <<< 17⟩
def constructorBit : NameFlags := ⟨1 <<< 18⟩
def specialNameBit : NameFlags := ⟨1 <<< 19⟩
def explicitBit : NameFlags := ⟨1 <<< 20⟩

/-! ## Sets of bits -/

instance : OrOp NameFlags := ⟨fun f g => ⟨f.bits ||| g.bits⟩⟩

/-- Whether two sets have a bit in common. -/
def overlaps (f g : NameFlags) : Bool := f.bits &&& g.bits != 0

/-- The four visibilities. -/
def allVisibilities : NameFlags := publicBit ||| internalBit ||| protectedBit ||| privateBit

/-- What makes a name callable. -/
def callable : NameFlags := methodBit ||| constructorBit ||| classConstructorBit

/-- Constructors of an object or of a class. -/
def anyConstructor : NameFlags := constructorBit ||| classConstructorBit

/-- The bits of a whole number. -/
def ofInt (v : Int) : NameFlags := ⟨bitsOfInt ((1 <<< 21) - 1) v⟩

/-- The names of the single bits, in ascending order of the bits. -/
def bitNames : List (String × NameFlags) := [
  ("PRIVATE", privateBit), ("PROTECTED", protectedBit), ("INTERNAL", internalBit),
  ("PUBLIC", publicBit), ("STATIC", staticBit), ("SEALED", sealedBit), ("ABSTRACT", abstractBit),
  ("VIRTUAL", virtualBit), ("NEW", newBit), ("CONST", constBit), ("READONLY", readonlyBit),
  ("METHOD", methodBit), ("CLASS_CONSTRUCTOR", classConstructorBit), ("CONSTRUCTOR", constructorBit),
  ("SPECIAL_NAME", specialNameBit),
  ("EXPLICIT_INTERFACE_IMPLEMENTATION", explicitBit)]

/-- All names that a record or the settings may use. -/
def names : List (String × NameFlags) := ("ALL_VISIBILITIES", allVisibilities) :: bitNames

/-- The words in front of a declaration, in the order in which they are written. -/
def modifierWords : List (NameFlags × String) := [
  (privateBit, "private"), (protectedBit, "protected"), (internalBit, "internal"),
  (publicBit, "public"), (staticBit, "static"), (sealedBit, "sealed"), (abstractBit, "abstract"),
  (virtualBit, "virtual"), (newBit, "new"), (constBit, "const"), (readonlyBit, "readonly")]

/-- The names of the bits that are set, in lower case. -/
def labels (f : NameFlags) : List String :=
  (bitNames.filter fun b => f.overlaps b.2).map (·.1.toLower)

/-- What carries no visibility is visible to all; the rest when a visibility of its own is asked
for. -/
def isVisible (f visibilities : NameFlags) : Bool :=
  !f.overlaps allVisibilities || (f.bits &&& allVisibilities.bits) &&& visibilities.bits != 0

end NameFlags

/-- How an argument is passed, as a set of bits. -/
structure ParameterKind where
  bits : Nat
deriving DecidableEq, Inhabited, Repr

namespace ParameterKind

/-! ## Single bits -/

/-- No bit at all. -/
def none : ParameterKind := ⟨0⟩
def inBit : ParameterKind := ⟨1 <<< 0⟩
def outBit : ParameterKind := ⟨1 <<< 1⟩
def refBit : ParameterKind := ⟨1 <<< 2⟩
def optionalBit : ParameterKind := ⟨1 <<< 3⟩
def defaultBit : ParameterKind := ⟨1 <<< 4⟩

/-! ## Sets of bits -/

instance : OrOp ParameterKind := ⟨fun f g => ⟨f.bits ||| g.bits⟩⟩

/-- Whether two sets have a bit in common. -/
def overlaps (f g : ParameterKind) : Bool := f.bits &&& g.bits != 0

/-- The bits of a whole number. -/
def ofInt (v : Int) : ParameterKind := ⟨bitsOfInt ((1 <<< 5) - 1) v⟩

/-- The names of the single bits, in ascending order of the bits. -/
def names : List (String × ParameterKind) := [
  ("IN", inBit), ("OUT", outBit), ("REF", refBit), ("OPTIONAL", optionalBit),
  ("HAS_DEFAULT_VALUE", defaultBit)]

/-- The names of the bits that are set, in lower case. -/
def labels (f : ParameterKind) : List String :=
  (names.filter fun b => f.overlaps b.2).map (·.1.toLower)

end ParameterKind

end ApiDocs
