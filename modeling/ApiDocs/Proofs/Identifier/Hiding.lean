import ApiDocs.Proofs.Identifier.Numbering

/-!
# Hidden names

Of several declarations of one name the one furthest inside counts, and it hides the others.  A name
then stands for the number of the last declaration that has it, so that a declared name which is not
hidden stands for its own place.

* `Numbering.IsHidden`: a name is declared again behind its place;
* `Numbering.exists_not_isHidden`: every declared name has a declaration that counts;
* `Identifier.numbering_apply_of_not_isHidden`: it stands for the number of that declaration;
* `Identifier.numbering_apply_eq_self_iff`: the names that stay as they are.
-/

namespace ApiDocs

open PathSegment

namespace Numbering

/-- The name at a place is declared again behind it. -/
def IsHidden (names : List String) (place : Nat) : Prop :=
  ∃ a ∈ names[place]?, a ∈ names.drop (place + 1)

instance (names : List String) (place : Nat) : Decidable (IsHidden names place) :=
  inferInstanceAs (Decidable (∃ a ∈ _, a ∈ _))

theorem not_isHidden_nil (place : Nat) : ¬ IsHidden [] place := by
  rintro ⟨a, ha, -⟩
  cases ha

theorem isHidden_cons_succ {a : String} {names : List String} {place : Nat} :
    IsHidden (a :: names) (place + 1) ↔ IsHidden names place := Iff.rfl

theorem not_isHidden_of_nodup {names : List String} (h : names.Nodup) (place : Nat) :
    ¬ IsHidden names place := by
  induction names generalizing place with
  | nil => exact not_isHidden_nil place
  | cons b names ih =>
    rw [List.nodup_cons] at h
    cases place with
    | zero =>
      rintro ⟨a, ha, hmem⟩
      cases ha
      exact h.1 hmem
    | succ place =>
      rw [isHidden_cons_succ]
      exact ih h.2 place

/-- The last declaration of a name counts. -/
theorem exists_not_isHidden {names : List String} {a : String} (h : a ∈ names) :
    ∃ place, names[place]? = some a ∧ ¬ IsHidden names place := by
  induction names with
  | nil => cases h
  | cons b names ih =>
    by_cases hmem : a ∈ names
    · obtain ⟨place, hplace, hhidden⟩ := ih hmem
      exact ⟨place + 1, hplace, hhidden⟩
    · obtain rfl := (List.mem_cons.mp h).resolve_right hmem
      refine ⟨0, rfl, ?_⟩
      rintro ⟨b, hb, hagain⟩
      cases hb
      exact hmem hagain

/-- Read from its end, a list of declarations gives a name what stands beside the one that counts. -/
theorem lookup_reverse_zip {names values : List String} (hlength : names.length = values.length)
    {place : Nat} {a : String} (ha : names[place]? = some a) (hshown : ¬ IsHidden names place) :
    (names.zip values).reverse.lookup a = values[place]? := by
  induction names generalizing values place with
  | nil => cases ha
  | cons b names ih =>
    cases values with
    | nil => cases hlength
    | cons v values =>
      have hlength : names.length = values.length := Nat.succ.inj hlength
      rw [List.zip_cons_cons, List.reverse_cons, List.lookup_append]
      cases place with
      | zero =>
        obtain rfl : b = a := Option.some.inj ha
        -- None of the declarations behind this one has the name.
        have hnone : (names.zip values).reverse.lookup b = none := by
          rw [List.lookup_eq_none_iff]
          intro e he
          rw [bne_iff_ne]
          rintro rfl
          have hmem := (List.of_mem_zip (List.mem_reverse.mp he)).1
          exact hshown ⟨e.1, rfl, hmem⟩
        rw [hnone, Option.none_or, List.lookup_cons, beq_self_eq_true]
        rfl
      | succ place =>
        rw [List.getElem?_cons_succ] at ha
        have hlt : place < values.length := by
          rw [← hlength]
          exact (List.getElem?_eq_some_iff.mp ha).1
        rw [ih hlength ha hshown, List.getElem?_eq_getElem hlt, Option.some_or,
          List.getElem?_cons_succ, List.getElem?_eq_getElem hlt]

end Numbering

open ApiDocs.Numbering

namespace Identifier

/-- A declared name that is not hidden stands for its own place. -/
theorem numbering_apply_of_not_isHidden {x : Identifier} {place : Nat} {a : String}
    (ha : x.genericNames[place]? = some a) (hshown : ¬ IsHidden x.genericNames place) :
    x.numbering.apply a = numberedName (place + 1) := by
  have hlt : place < x.genericNames.length := (List.getElem?_eq_some_iff.mp ha).1
  have hlookup := lookup_reverse_zip (length_numberNames 0 x.genericNames).symm ha hshown
  rw [numberNames_eq_numbered, getElem?_numbered hlt, Nat.zero_add] at hlookup
  rw [Numbering.apply, numbering, numberNames_eq_numbered, hlookup, Option.getD_some]

/-- The numbering leaves a name as it is unless the declaration that counts has another number. -/
theorem numbering_apply_eq_self_iff {x : Identifier} {a : String} :
    x.numbering.apply a = a ↔ ∀ place, x.genericNames[place]? = some a →
      ¬ IsHidden x.genericNames place → a = numberedName (place + 1) := by
  constructor
  · intro hkept place ha hshown
    rw [← numbering_apply_of_not_isHidden ha hshown, hkept]
  · intro h
    by_cases hmem : a ∈ x.genericNames
    · obtain ⟨place, ha, hshown⟩ := exists_not_isHidden hmem
      rw [numbering_apply_of_not_isHidden ha hshown]
      exact (h place ha hshown).symm
    · exact numbering_apply_of_not_mem hmem

/-! ## Types in the parameter list -/

/-- The type at a place in a parameter. -/
def typeAt? (x : Identifier) (i : Nat) (place : List (Nat × Nat)) : Option TypeRef :=
  x.parameters[i]?.bind (·.type.typeAt? place)

/-- The canonical form has the same types at the same places, with their names numbered. -/
theorem typeAt?_canonical (x : Identifier) (i : Nat) (place : List (Nat × Nat)) :
    x.canonical.typeAt? i place = (x.typeAt? i place).map (TypeRef.rename x.numbering.apply) := by
  rw [typeAt?, typeAt?, canonical, List.getElem?_map]
  cases x.parameters[i]? with
  | none => rfl
  | some p => exact p.type.typeAt?_rename _ place

end Identifier

end ApiDocs
