import ApiDocs.Identifier.MemberId
import ApiDocs.Proofs.Grammar.Identifier
import ApiDocs.Proofs.Identifier.Numbering

/-!
# What is around a declaration

The type around a member is named by the path of the member.  When the path is read off a text, its
generic names are numbers already, so the key of the type is the text that it goes by.

* `Identifier.exists_eq_ofPath_of_parent?`: the type around what is read has a path of its own;
* `Identifier.canonicalKey_eq_text_of_parent?`: its key is its text;
* `MemberId.exists_parse`: a member id has an identifier behind its letter.
-/

namespace ApiDocs

namespace Identifier

open PathSegment

/-! ## Paths -/

theorem numberPath_toSegments (count : Nat) (path : List PathSegment) :
    numberPath count (toSegments count path) = toSegments count path := by
  induction path generalizing count with
  | nil => rfl
  | cons s path ih =>
    rw [toSegments, numberPath]
    show { s.toSegment count with typeParameters := numberNames count (s.declared count) } ::
      numberPath (count + (s.declared count).length) (toSegments (count + s.arity) path) = _
    rw [numberNames_eq_numbered, length_declared, ih]
    rfl

/-- A path with its parameters keeps everything in the canonical form but how the parameters are
called and passed. -/
theorem canonical_ofPath_eq (isMethod : Bool) (outer : List PathSegment) (last : PathSegment)
    (ps : List Parameter) : (ofPath isMethod outer last ps).canonical =
      ofPath isMethod outer last (ps.map fun p => { type := p.type }) := by
  have hid : (ofPath isMethod outer last ps).numbering.apply = id :=
    funext (numbering_apply_of_numbered (genericNames_ofPath isMethod outer last ps))
  rw [canonical, numberNames_eq_numbered, hid]
  show Identifier.mk (numberPath 0 (toSegments 0 outer)) _
    (numbered ((toSegments 0 outer).flatMap (·.typeParameters)).length
      (last.declared (totalArity outer)).length) (ps.map fun p => { type := p.type.rename id }) _ = _
  rw [numberPath_toSegments, flatMap_typeParameters_toSegments, length_numbered, length_declared]
  simp only [TypeRef.rename_id]
  rfl

/-- A path without parameters is its own canonical form. -/
theorem canonical_ofPath (isMethod : Bool) (outer : List PathSegment) (last : PathSegment) :
    (ofPath isMethod outer last []).canonical = ofPath isMethod outer last [] :=
  canonical_ofPath_eq isMethod outer last []

theorem parent?_ofPath_append (isMethod : Bool) (outer : List PathSegment) (s last : PathSegment)
    (ps : List Parameter) : (ofPath isMethod (outer ++ [s]) last ps).parent? =
      some (ofPath false outer s []) := by
  have hpath : (ofPath isMethod (outer ++ [s]) last ps).classPath =
      toSegments 0 outer ++ [s.toSegment (totalArity outer)] := by
    show toSegments 0 (outer ++ [s]) = _
    rw [toSegments_append, Nat.zero_add]
    rfl
  rw [parent?, hpath, List.getLast?_concat, List.dropLast_concat]
  rfl

/-- What is around a path has the path without its last level. -/
theorem exists_eq_append_of_parent?_ofPath {isMethod : Bool} {outer : List PathSegment}
    {last : PathSegment} {ps : List Parameter} {parent : Identifier}
    (h : (ofPath isMethod outer last ps).parent? = some parent) :
    ∃ path s, outer = path ++ [s] ∧ parent = ofPath false path s [] := by
  obtain rfl | ⟨path, s, rfl⟩ := List.eq_nil_or_concat' outer
  · cases h
  · rw [parent?_ofPath_append, Option.some.injEq] at h
    exact ⟨path, s, rfl, h.symm⟩

/-! ## The type around what is read -/

variable {text : String} {isMethod : Bool} {x parent : Identifier}

/-- The type around what is read has a path of its own. -/
theorem exists_eq_ofPath_of_parent? (h : Identifier.parse text isMethod = .ok x)
    (hparent : x.parent? = some parent) : ∃ outer s, parent = ofPath false outer s [] := by
  obtain ⟨tree, -, -, -, rfl⟩ := derives_of_parse h
  obtain ⟨outer, s, -, rfl⟩ := exists_eq_append_of_parent?_ofPath hparent
  exact ⟨outer, s, rfl⟩

/-- The key of the type around what is read is the text of that type. -/
theorem canonicalKey_eq_text_of_parent? (h : Identifier.parse text isMethod = .ok x)
    (hparent : x.parent? = some parent) : parent.canonicalKey = parent.text := by
  obtain ⟨outer, s, rfl⟩ := exists_eq_ofPath_of_parent? h hparent
  rw [canonicalKey, canonical_ofPath]

end Identifier

/-- A member id has an identifier behind its letter. -/
theorem MemberId.exists_parse {text : String} {id : MemberId} (h : MemberId.parse text = .ok id) :
    ∃ body, Identifier.parse body (id.kind == .method) = .ok id.identifier := by
  simp only [MemberId.parse] at h
  split at h
  · split at h
    · cases h
    · split at h
      · cases h
      · next hparse =>
        cases h
        exact ⟨_, hparse⟩
  · cases h

end ApiDocs
