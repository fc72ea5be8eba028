import ApiDocs.Proofs.Identifier.Declared
import ApiDocs.Proofs.TypeRef.Rename

/-!
# Real names and numbers

The generic names of a path are numbers until they are given real ones, and the canonical form makes
numbers of them again.  When the real names are distinct the second step undoes the first, name by
name, although both replace all names at once and a real name may look like a number.

* `Numbering.map_apply_zip`, `Numbering.map_apply_reverse_zip`: distinct names become what stands
  beside them, whether the list is read from its front or from its end;
* `Identifier.numbering_apply_of_numbered`: numbers stay as they are;
* `Identifier.canonical_rename`: without parameters, the canonical form knows no real names;
* `Identifier.signatureKey_eq`: what the key of a member is made of.
-/

namespace ApiDocs

open PathSegment

theorem numberedName_inj {n m : Nat} (h : numberedName n = numberedName m) : n = m := by
  have htext : toString n = toString m := (String.append_right_inj "T").mp h
  have hdigits := congrArg (fun s : String => Nat.ofDigitChars 10 s.toList 0) htext
  simpa only [Nat.toString_eq_repr, Nat.toList_repr, Nat.ofDigitChars_ten_toDigits] using hdigits

theorem nodup_numbered (count arity : Nat) : (numbered count arity).Nodup := by
  refine List.Pairwise.map _ (fun i j hne heq => hne ?_) List.nodup_range
  have := numberedName_inj heq
  omega

/-! ## Replacing names -/

namespace Numbering

theorem lookup_of_mem {r : Numbering} {a b : String} (hnodup : (r.map (·.1)).Nodup)
    (hmem : (a, b) ∈ r) : r.lookup a = some b := by
  induction r with
  | nil => cases hmem
  | cons e r ih =>
    obtain ⟨a', b'⟩ := e
    rw [List.map_cons, List.nodup_cons] at hnodup
    rw [List.lookup_cons]
    rcases List.mem_cons.mp hmem with heq | hmem'
    · cases heq
      rw [beq_self_eq_true]
    · have hne : (a == a') = false := by
        rw [beq_eq_false_iff_ne]
        rintro rfl
        exact hnodup.1 (List.mem_map.mpr ⟨_, hmem', rfl⟩)
      rw [hne]
      exact ih hnodup.2 hmem'

theorem apply_of_mem {r : Numbering} {a b : String} (hnodup : (r.map (·.1)).Nodup)
    (hmem : (a, b) ∈ r) : r.apply a = b := by
  rw [apply, lookup_of_mem hnodup hmem, Option.getD_some]

/-- A name that is not declared stays. -/
theorem apply_of_not_mem {r : Numbering} {a : String} (h : a ∉ r.map (·.1)) : r.apply a = a := by
  have hnone : r.lookup a = none := by
    rw [List.lookup_eq_none_iff]
    intro e he
    rw [bne_iff_ne]
    rintro rfl
    exact h (List.mem_map.mpr ⟨e, he, rfl⟩)
  rw [apply, hnone, Option.getD_none]

/-- Where every declared name stays, all do. -/
theorem apply_of_refl {r : Numbering} (h : ∀ e ∈ r, e.2 = e.1) (a : String) : r.apply a = a := by
  rw [apply]
  cases hlookup : r.lookup a with
  | none => rfl
  | some b =>
    obtain ⟨l₁, l₂, rfl, -⟩ := List.lookup_eq_some_iff.mp hlookup
    exact h (a, b) (by simp)

theorem map_apply_eq {r : Numbering} {names values : List String} (hnodup : (r.map (·.1)).Nodup)
    (hlength : names.length = values.length) (hsub : ∀ e ∈ names.zip values, e ∈ r) :
    names.map r.apply = values := by
  induction names generalizing values with
  | nil =>
    cases values with
    | nil => rfl
    | cons b values => cases hlength
  | cons a names ih =>
    cases values with
    | nil => cases hlength
    | cons b values =>
      rw [List.zip_cons_cons, List.forall_mem_cons] at hsub
      rw [List.map_cons, apply_of_mem hnodup hsub.1, ih (Nat.succ.inj hlength) hsub.2]

variable {names values : List String}

theorem map_fst_zip (hlength : names.length = values.length) :
    (names.zip values).map (·.1) = names :=
  List.map_fst_zip (Nat.le_of_eq hlength)

theorem map_apply_zip (hnodup : names.Nodup) (hlength : names.length = values.length) :
    names.map (Numbering.apply (names.zip values)) = values := by
  refine map_apply_eq ?_ hlength fun e he => he
  rw [map_fst_zip hlength]
  exact hnodup

theorem map_apply_reverse_zip (hnodup : names.Nodup) (hlength : names.length = values.length) :
    names.map (Numbering.apply (names.zip values).reverse) = values := by
  refine map_apply_eq ?_ hlength fun e he => List.mem_reverse.mpr he
  rw [List.map_reverse, map_fst_zip hlength]
  exact List.pairwise_reverse.mpr (hnodup.imp Ne.symm)

end Numbering

/-! ## Numbers -/

namespace Identifier

theorem numberNames_eq_numbered (count : Nat) (names : List String) :
    numberNames count names = numbered count names.length := rfl

theorem length_numberNames (count : Nat) (names : List String) :
    (numberNames count names).length = names.length := length_numbered _ _

/-- Distinct names become their numbers. -/
theorem map_numbering_apply {x : Identifier} (hnodup : x.genericNames.Nodup) :
    x.genericNames.map x.numbering.apply = numbered 0 x.genericNames.length :=
  Numbering.map_apply_reverse_zip hnodup (length_numberNames 0 _).symm

theorem map_fst_numbering (x : Identifier) : x.numbering.map (·.1) = x.genericNames.reverse := by
  rw [numbering, List.map_reverse, Numbering.map_fst_zip (length_numberNames 0 _).symm]

/-- A name that is not declared is not numbered. -/
theorem numbering_apply_of_not_mem {x : Identifier} {a : String} (h : a ∉ x.genericNames) :
    x.numbering.apply a = a := by
  refine Numbering.apply_of_not_mem ?_
  rw [map_fst_numbering, List.mem_reverse]
  exact h

/-- Names that are numbers stay. -/
theorem numbering_apply_of_numbered {x : Identifier} {n : Nat} (h : x.genericNames = numbered 0 n)
    (a : String) : x.numbering.apply a = a := by
  refine Numbering.apply_of_refl ?_ a
  intro e he
  rw [numbering, List.mem_reverse, numberNames_eq_numbered, h, length_numbered, numbered,
    List.zip_map', List.mem_map] at he
  obtain ⟨i, -, rfl⟩ := he
  rfl

/-! ## Canonical forms -/

theorem numberPath_rename (f : String → String) (count : Nat) (path : List Segment) :
    numberPath count (path.map (·.rename f)) = numberPath count path := by
  induction path generalizing count with
  | nil => rfl
  | cons s path ih =>
    show { s with typeParameters := numberNames count (s.typeParameters.map f) } ::
      numberPath (count + (s.typeParameters.map f).length) (path.map (·.rename f)) = _
    rw [List.length_map, ih, numberNames_eq_numbered, List.length_map]
    rfl

theorem pathGenericNames_rename (f : String → String) (x : Identifier) :
    (x.rename f).pathGenericNames = x.pathGenericNames.map f := by
  show (x.classPath.map (·.rename f)).flatMap (·.typeParameters) = _
  rw [List.flatMap_map, pathGenericNames, List.map_flatMap]
  rfl

theorem genericNames_rename (f : String → String) (x : Identifier) :
    (x.rename f).genericNames = x.genericNames.map f := by
  rw [genericNames, pathGenericNames_rename, genericNames, List.map_append]
  rfl

/-- Of a renaming the canonical form knows only what it has numbered in the parameters. -/
theorem canonical_rename_of_forall {x : Identifier} {f : String → String}
    (h : ∀ p ∈ x.parameters, (p.type.rename f).rename (x.rename f).numbering.apply
      = p.type.rename x.numbering.apply) : (x.rename f).canonical = x.canonical := by
  have hparameters : (x.rename f).parameters.map
      (fun p => ({ type := p.type.rename (x.rename f).numbering.apply } : Parameter))
      = x.parameters.map fun p => { type := p.type.rename x.numbering.apply } := by
    rw [rename, List.map_map]
    refine List.map_congr_left fun p hp => ?_
    rw [← h p hp]
    rfl
  rw [canonical, canonical, hparameters, pathGenericNames_rename]
  simp only [rename, numberPath_rename, numberNames_eq_numbered, List.length_map]

/-- The canonical form of what has no parameters knows no real names. -/
theorem canonical_rename {x : Identifier} (h : x.parameters = []) (f : String → String) :
    (x.rename f).canonical = x.canonical := by
  refine canonical_rename_of_forall ?_
  rw [h]
  exact nofun

theorem rename_id (x : Identifier) : x.rename id = x := by
  have hpath : x.classPath.map (·.rename id) = x.classPath := by
    refine (List.map_congr_left fun s _ => ?_).trans (List.map_id _)
    rw [Segment.rename, List.map_id]
    rfl
  have hparameters : x.parameters.map (·.rename id) = x.parameters := by
    refine (List.map_congr_left fun p _ => ?_).trans (List.map_id _)
    rw [Parameter.rename, TypeRef.rename_id]
    rfl
  rw [rename, hpath, hparameters, List.map_id]

theorem parent?_rename (f : String → String) (x : Identifier) :
    (x.rename f).parent? = x.parent?.map (·.rename f) := by
  show (x.classPath.map (·.rename f)).getLast?.map _ = (x.classPath.getLast?.map _).map _
  rw [List.getLast?_map]
  cases x.classPath.getLast? with
  | none => rfl
  | some last =>
    simp only [Option.map_some, rename, Segment.rename, List.map_dropLast, List.map_nil]

/-! ## Keys -/

/-- Without a name and a kind, a parameter is written as its type. -/
theorem text_parameter_mk (t : TypeRef) : Parameter.text { type := t } = t.text := by
  simp [Parameter.text, ParameterKind.overlaps, ParameterKind.none]

/-- The types of the parameters in canonical form. -/
def canonicalTypes (x : Identifier) : List TypeRef :=
  x.parameters.map fun p => p.type.rename x.numbering.apply

/-- The key is made of the name, the number of generic parameters of the path and of the last level,
and the types of the parameters with their generic names numbered. -/
theorem signatureKey_eq (x : Identifier) : x.signatureKey = x.name ++
    angled (numbered x.pathGenericNames.length x.typeParameters.length) ++
    (if x.isCallable || !x.canonicalTypes.isEmpty then
      "(" ++ ", ".intercalate (x.canonicalTypes.map TypeRef.text) ++ ")" else "") := by
  have hcallable : x.canonical.isCallable = x.isCallable := rfl
  have hempty : x.canonical.parameters.isEmpty = x.canonicalTypes.isEmpty := by
    rw [canonical, canonicalTypes, List.isEmpty_map, List.isEmpty_map]
  have htexts : x.canonical.parameters.map Parameter.text = x.canonicalTypes.map TypeRef.text := by
    rw [canonical, canonicalTypes, List.map_map, List.map_map]
    exact List.map_congr_left fun p _ => text_parameter_mk _
  rw [signatureKey, signature, render, parameterText, hcallable, hempty, htexts]
  simp [canonical, numberNames_eq_numbered]

theorem signatureKey_congr {x y : Identifier} (hname : x.name = y.name)
    (hpath : x.pathGenericNames.length = y.pathGenericNames.length)
    (htypes : x.typeParameters.length = y.typeParameters.length)
    (hparameters : x.canonicalTypes = y.canonicalTypes)
    (hcallable : x.isCallable = y.isCallable) : x.signatureKey = y.signatureKey := by
  rw [signatureKey_eq, signatureKey_eq, hname, hpath, htypes, hparameters, hcallable]

end Identifier

end ApiDocs
