/-!
# References to types

A reference is a dotted path of names, each with its generic arguments filled in, followed by array
suffixes: what a parameter is, as opposed to an identifier, which names a declaration.

* `TypeRef.text`: the text of a reference, the sole basis of `==`;
* `TypeRef.rename`: every name replaced at every depth, all at once.
-/

namespace ApiDocs

mutual
/-- A dotted path of names, then array suffixes by the number of their dimensions. -/
inductive TypeRef
  | mk (names : List TypeName) (arrays : List Int)
/-- One name of a path with its generic arguments. -/
inductive TypeName
  | mk (name : String) (arguments : List TypeRef)
end

namespace TypeRef

/-- The names of the path. -/
def names : TypeRef → List TypeName
  | mk names _ => names

/-- The numbers of dimensions of the array suffixes. -/
def arrays : TypeRef → List Int
  | mk _ arrays => arrays

/-- A path of plain names. -/
def simple (names : List String) : TypeRef := mk (names.map (TypeName.mk · [])) []

/-- Other array suffixes on the same path. -/
def withArrays (t : TypeRef) (arrays : List Int) : TypeRef := mk t.names arrays

end TypeRef

namespace TypeName

/-- The name without its arguments. -/
def name : TypeName → String
  | mk name _ => name

/-- The generic arguments. -/
def arguments : TypeName → List TypeRef
  | mk _ arguments => arguments

end TypeName

/-! ## Text -/

/-- An array suffix: a comma between each two dimensions, and none without dimensions. -/
def arrayText (dimensions : Int) : String :=
  "[" ++ "".pushn ',' (dimensions - 1).toNat ++ "]"

/-- Generic arguments between angle brackets, nothing when there are none. -/
def angled : List String → String
  | [] => ""
  | texts => "<" ++ ", ".intercalate texts ++ ">"

mutual
/-- The text of a reference. -/
def TypeRef.text : TypeRef → String
  | .mk names arrays => ".".intercalate (TypeName.texts names) ++ String.join (arrays.map arrayText)
/-- The texts of several references. -/
def TypeRef.texts : List TypeRef → List String
  | [] => []
  | t :: ts => t.text :: TypeRef.texts ts
/-- The text of a name with its arguments. -/
def TypeName.text : TypeName → String
  | .mk name arguments => name ++ angled (TypeRef.texts arguments)
/-- The texts of several names. -/
def TypeName.texts : List TypeName → List String
  | [] => []
  | n :: ns => n.text :: TypeName.texts ns
end

instance : BEq TypeRef := ⟨fun a b => a.text == b.text⟩

instance : BEq TypeName := ⟨fun a b => a.text == b.text⟩

theorem TypeRef.texts_eq_map (ts : List TypeRef) : TypeRef.texts ts = ts.map TypeRef.text := by
  induction ts with
  | nil => rfl
  | cons t ts ih => simp [TypeRef.texts, ih]

theorem TypeName.texts_eq_map (ns : List TypeName) : TypeName.texts ns = ns.map TypeName.text := by
  induction ns with
  | nil => rfl
  | cons n ns ih => simp [TypeName.texts, ih]

/-! ## Renaming -/

mutual
/-- Replaces every name of the path and of the arguments at any depth. -/
def TypeRef.rename (f : String → String) : TypeRef → TypeRef
  | .mk names arrays => .mk (TypeName.renameAll f names) arrays
/-- Replaces the names in several references. -/
def TypeRef.renameAll (f : String → String) : List TypeRef → List TypeRef
  | [] => []
  | t :: ts => t.rename f :: TypeRef.renameAll f ts
/-- Replaces a name and the names in its arguments. -/
def TypeName.rename (f : String → String) : TypeName → TypeName
  | .mk name arguments => .mk (f name) (TypeRef.renameAll f arguments)
/-- Replaces the names of a path. -/
def TypeName.renameAll (f : String → String) : List TypeName → List TypeName
  | [] => []
  | n :: ns => n.rename f :: TypeName.renameAll f ns
end

theorem TypeRef.renameAll_eq_map (f : String → String) (ts : List TypeRef) :
    TypeRef.renameAll f ts = ts.map (TypeRef.rename f) := by
  induction ts with
  | nil => rfl
  | cons t ts ih => simp [TypeRef.renameAll, ih]

theorem TypeName.renameAll_eq_map (f : String → String) (ns : List TypeName) :
    TypeName.renameAll f ns = ns.map (TypeName.rename f) := by
  induction ns with
  | nil => rfl
  | cons n ns ih => simp [TypeName.renameAll, ih]

end ApiDocs
