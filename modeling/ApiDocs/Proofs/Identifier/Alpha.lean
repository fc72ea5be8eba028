import ApiDocs.Proofs.Identifier.Numbering
import ApiDocs.Proofs.TypeRef.Rename

/-!
# Spellings of generic names

The canonical form does not depend on how the generic names of a declaration are spelled.  A renaming
may make any names of them, as long as it leaves the names that are not declared and gives no two
names the same spelling; which declaration a name refers to, and which one hides another, is then the
same before and after.

* `Identifier.mentions`: the names that an identifier declares or refers to;
* `Numbering.lookup_rename`: a numbering whose names are replaced finds under a new name what was
  found under the old one;
* `Identifier.canonical_rename_of_injOn`: the canonical form before and after a renaming.
-/

namespace ApiDocs

namespace Numbering

/-- The numbering with its names replaced. -/
def rename (f : String → String) (r : Numbering) : Numbering := r.map fun e => (f e.1, e.2)

/-- A new name has the number of the old one, when no other name has become the same. -/
theorem lookup_rename {f : String → String} {r : Numbering} {a : String}
    (h : ∀ e ∈ r, f e.1 = f a → e.1 = a) : (r.rename f).lookup (f a) = r.lookup a := by
  induction r with
  | nil => rfl
  | cons e r ih =>
    obtain ⟨b, number⟩ := e
    rw [List.forall_mem_cons] at h
    have hbeq : (f a == f b) = (a == b) := by
      rw [Bool.eq_iff_iff, beq_iff_eq, beq_iff_eq]
      exact ⟨fun heq => (h.1 heq.symm).symm, congrArg f⟩
    show List.lookup (f a) ((f b, number) :: rename f r) = _
    rw [List.lookup_cons, List.lookup_cons, hbeq, ih h.2]

theorem exists_lookup_of_mem {r : Numbering} {a : String} (h : a ∈ r.map (·.1)) :
    ∃ b, r.lookup a = some b := by
  rw [← Option.isSome_iff_exists, List.lookup_isSome_iff]
  obtain ⟨e, he, rfl⟩ := List.mem_map.mp h
  exact ⟨e, he, beq_self_eq_true _⟩

end Numbering

namespace Identifier

/-- The names that are declared, then the names in the types of the parameters at any depth. -/
def mentions (x : Identifier) : List String :=
  x.genericNames ++ x.parameters.flatMap (·.type.mentions)

theorem numbering_rename (f : String → String) (x : Identifier) :
    (x.rename f).numbering = x.numbering.rename f := by
  rw [numbering, numbering, genericNames_rename, Numbering.rename, List.map_reverse,
    numberNames_eq_numbered, numberNames_eq_numbered, List.length_map, List.zip_map_left]
  rfl

section
variable {x : Identifier} {f : String → String}

/-- What becomes of a mentioned name is the same before and after a renaming. -/
theorem numbering_apply_rename (hstay : ∀ a ∉ x.genericNames, f a = a)
    (hinj : Set.InjOn f {a | a ∈ x.mentions}) {a : String} (ha : a ∈ x.mentions) :
    (x.rename f).numbering.apply (f a) = x.numbering.apply a := by
  have hmem : ∀ e ∈ x.numbering, e.1 ∈ x.genericNames := by
    intro e he
    rw [← List.mem_reverse, ← map_fst_numbering]
    exact List.mem_map_of_mem he
  have hlookup : (x.rename f).numbering.lookup (f a) = x.numbering.lookup a := by
    rw [numbering_rename]
    exact Numbering.lookup_rename fun e he heq =>
      hinj (List.mem_append_left _ (hmem e he)) ha heq
  by_cases hdeclared : a ∈ x.genericNames
  · obtain ⟨b, hb⟩ : ∃ b, x.numbering.lookup a = some b := by
      rw [← List.mem_reverse, ← map_fst_numbering] at hdeclared
      exact Numbering.exists_lookup_of_mem hdeclared
    rw [Numbering.apply, Numbering.apply, hlookup, hb, Option.getD_some, Option.getD_some]
  · rw [Numbering.apply, hlookup, hstay a hdeclared, Numbering.apply]

/-- The spellings of generic names do not matter: a renaming that leaves the names that are not
declared, and keeps apart the declared names and the names in the types of the parameters, leaves the
canonical form. -/
theorem canonical_rename_of_injOn (hstay : ∀ a ∉ x.genericNames, f a = a)
    (hinj : Set.InjOn f {a | a ∈ x.mentions}) : (x.rename f).canonical = x.canonical := by
  refine canonical_rename_of_forall fun p hp => ?_
  rw [TypeRef.rename_rename]
  refine TypeRef.rename_congr fun a ha => numbering_apply_rename hstay hinj ?_
  exact List.mem_append_right _ (List.mem_flatMap.mpr ⟨p, hp, ha⟩)

end

/-- A method whose second level hides a name of the first, with a parameter of a nested type. -/
def hidingMethod : Identifier where
  classPath := [{ name := "Outer", typeParameters := ["A", "B"] },
    { name := "Inner", typeParameters := ["A"] }]
  name := "Put"
  typeParameters := ["C"]
  parameters := [{
    type := .mk [.mk "Map" [.simple ["A"], .mk [.mk "List" [.simple ["C"]]] [0], .simple ["B"]]] [1]
    name := some "table" }]

/-- The names of `hidingMethod` anew, two of them spelled like numbered ones. -/
def respell (a : String) : String :=
  if a = "A" then "T2" else if a = "B" then "T3" else if a = "C" then "Value" else a

theorem canonical_rename_of_hiding : (hidingMethod.rename respell).canonical
    = hidingMethod.canonical := by
  refine canonical_rename_of_injOn (fun a ha => ?_) fun a ha b hb => ?_
  · have hne : a ≠ "A" ∧ a ≠ "B" ∧ a ≠ "C" := by
      rw [show hidingMethod.genericNames = ["A", "B", "A", "C"] from rfl] at ha
      simp_all
    rw [respell, if_neg hne.1, if_neg hne.2.1, if_neg hne.2.2]
  · exact (by decide : ∀ a ∈ hidingMethod.mentions, ∀ b ∈ hidingMethod.mentions,
      respell a = respell b → a = b) a ha b hb

end Identifier

end ApiDocs
