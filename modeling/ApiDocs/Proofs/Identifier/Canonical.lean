import ApiDocs.Proofs.Identifier.Numbering

/-!
# Canonical forms are canonical

The canonical form declares `T1`, `T2`, … in this order, whatever was declared before.  Under a
numbering that gives these names to themselves nothing is renamed, neither what refers to them nor a
name that only happens to be spelled like one of them.

* `Identifier.genericNames_canonical`: what the canonical form declares;
* `Identifier.canonical_canonical`: the canonical form is its own canonical form;
* `Identifier.parent?_canonical`: what is around the canonical form is the canonical form of what is
  around the declaration.
-/

namespace ApiDocs.Identifier

open PathSegment

/-! ## Numbered paths -/

theorem numberPath_append (count : Nat) (path more : List Segment) :
    numberPath count (path ++ more) = numberPath count path ++
      numberPath (count + (path.flatMap (·.typeParameters)).length) more := by
  induction path generalizing count with
  | nil => rfl
  | cons s path ih =>
    rw [List.cons_append, numberPath, numberPath, ih, List.flatMap_cons, List.length_append,
      Nat.add_assoc]
    rfl

/-- The levels of a numbered path declare the numbers that follow each other. -/
theorem flatMap_typeParameters_numberPath (count : Nat) (path : List Segment) :
    (numberPath count path).flatMap (·.typeParameters) =
      numbered count (path.flatMap (·.typeParameters)).length := by
  induction path generalizing count with
  | nil => rfl
  | cons s path ih =>
    rw [numberPath, List.flatMap_cons, ih, List.flatMap_cons, List.length_append,
      numberNames_eq_numbered]
    exact numbered_append count _ _

theorem numberPath_numberPath (count : Nat) (path : List Segment) :
    numberPath count (numberPath count path) = numberPath count path := by
  induction path generalizing count with
  | nil => rfl
  | cons s path ih =>
    simp only [numberPath, numberNames_eq_numbered, length_numbered, ih]

/-! ## Canonical forms -/

theorem pathGenericNames_canonical (x : Identifier) :
    x.canonical.pathGenericNames = numbered 0 x.pathGenericNames.length :=
  flatMap_typeParameters_numberPath 0 x.classPath

/-- The canonical form declares the numbers from one on, each of them once. -/
theorem genericNames_canonical (x : Identifier) :
    x.canonical.genericNames = numbered 0 x.genericNames.length := by
  have happend := numbered_append 0 x.pathGenericNames.length x.typeParameters.length
  rw [Nat.zero_add] at happend
  rw [genericNames, pathGenericNames_canonical, genericNames, List.length_append]
  exact happend

/-- The canonical form of a declaration is its own canonical form, in every field: also where one name
is declared on several levels, and where names are spelled like numbers in another order. -/
theorem canonical_canonical (x : Identifier) : x.canonical.canonical = x.canonical := by
  have hstay : x.canonical.numbering.apply = id :=
    funext (numbering_apply_of_numbered x.genericNames_canonical)
  have hparameters : x.canonical.parameters.map
      (fun p => ({ type := p.type.rename x.canonical.numbering.apply } : Parameter)) =
        x.canonical.parameters := by
    rw [hstay, canonical, List.map_map]
    exact List.map_congr_left fun p _ => by rw [Function.comp_apply, TypeRef.rename_id]
  rw [canonical, hparameters, pathGenericNames_canonical, length_numbered]
  simp only [canonical, numberPath_numberPath, numberNames_eq_numbered, length_numbered]

/-- A declaration whose names hide each other and are spelled like numbers, with a parameter whose type
mentions them and a number that is not declared. -/
example :
    let x : Identifier := {
      classPath := [⟨"A", ["T2", "T1"], .none⟩, ⟨"B", ["T2"], .none⟩]
      name := "f"
      typeParameters := ["T1"]
      parameters := [{
        type := .mk [.mk "Map" [.simple ["T1"], .simple ["T2"], .simple ["T4"]]] [2] }] }
    x.canonical.text = "A<T1, T2>.B<T3>.f<T4>(Map<T4, T3, T4>[,])" := by
  decide

/-! ## What is around a canonical form -/

/-- Cutting off the last level and numbering may change places. -/
theorem parent?_canonical (x : Identifier) : x.canonical.parent? = x.parent?.map canonical := by
  obtain ⟨classPath, name, typeParameters, parameters, flags⟩ := x
  obtain rfl | ⟨path, s, rfl⟩ := List.eq_nil_or_concat' classPath
  · rfl
  · simp [parent?, canonical, numberPath_append, numberPath, pathGenericNames]

end ApiDocs.Identifier
