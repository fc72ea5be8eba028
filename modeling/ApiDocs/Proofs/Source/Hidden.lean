import Mathlib
import ApiDocs.Proofs.Flags
import ApiDocs.Proofs.Grammar.Identifier
import ApiDocs.Proofs.Source.Loaded
import ApiDocs.Proofs.Source.Naming

/-!
# What is hidden

A declaration carries the visibilities of its structural record, since the spelling of a name says
nothing about them. When none of them is asked for, the structural half does not have it. Its
documentation is not hidden with it: merging puts what is documented where nothing is declared.

* `StructuralRecord.isVisible_of_toIdentifier`: a declaration is as visible as its record;
* `isCompilerGenerated_default`: what counts as made by a compiler;
* `StructuralRecord.skips_of_toIdentifier`: what a compiler made has no identifier;
* `Source.load_hidden`: at and in the place of what is hidden stands what the documentation alone has
  there.
-/

namespace ApiDocs

/-! ## Flags of identifiers -/

theorem SegmentName.overlaps_flags (name : SegmentName) :
    name.flags.overlaps .allVisibilities = false := by
  unfold flags
  split
  · rfl
  · rfl
  · split <;> rfl
  · split <;> rfl

theorem Identifier.overlaps_flags_of_parse {text : String} {isMethod : Bool} {x : Identifier}
    (h : Identifier.parse text isMethod = .ok x) : x.flags.overlaps .allVisibilities = false := by
  obtain ⟨tree, -, -, -, rfl⟩ := Identifier.derives_of_parse h
  rw [IdentifierTree.toIdentifier, Identifier.ofPath]
  cases isMethod with
  | false => exact SegmentName.overlaps_flags _
  | true =>
    rw [if_pos rfl, NameFlags.overlaps_or, SegmentName.overlaps_flags]
    rfl

namespace StructuralRecord

/-- A declaration is as visible as its record. -/
theorem isVisible_of_toIdentifier {r : StructuralRecord} {x : Identifier}
    (h : r.toIdentifier = .ok x) (v : NameFlags) : x.flags.isVisible v = r.flags.isVisible v := by
  obtain ⟨kind, y, z, -, hy, -, -, hx, -⟩ := toIdentifier_eq_ok h
  have hflags : x.flags = y.flags ||| r.flags := congrArg Identifier.flags hx
  rw [hflags, NameFlags.isVisible_or (Identifier.overlaps_flags_of_parse hy)]

end StructuralRecord

/-! ## Names that a compiler made -/

theorem mem_of_mem_dottedParts {cs part : List Char} (hpart : part ∈ dottedParts cs) {c : Char}
    (hc : c ∈ part) : c ∈ cs := by
  induction cs generalizing part with
  | nil =>
    rw [dottedParts, List.mem_singleton] at hpart
    rwa [hpart] at hc
  | cons d ds ih =>
    rw [dottedParts] at hpart
    split at hpart
    · rcases List.mem_cons.mp hpart with rfl | hpart
      · cases hc
      · exact List.mem_cons_of_mem d (ih hpart hc)
    · split at hpart
      · next first parts hparts =>
        rcases List.mem_cons.mp hpart with rfl | hpart
        · rcases List.mem_cons.mp hc with rfl | hc
          · exact List.mem_cons_self
          · exact List.mem_cons_of_mem d (ih (hparts ▸ List.mem_cons_self) hc)
        · exact List.mem_cons_of_mem d (ih (hparts ▸ List.mem_cons_of_mem _ hpart) hc)
      · rw [List.mem_singleton.mp hpart, List.mem_singleton] at hc
        rw [hc]
        exact List.mem_cons_self

theorem anyPartMatches_default (parts : List (List Char)) :
    anyPartMatches .default parts = .ok (parts.any ['<'].isPrefixOf) := by
  induction parts with
  | nil => rfl
  | cons part parts ih =>
    have hmatches : Prefixes.matches .default part = .ok (['<'].isPrefixOf part) := by
      show (if ['<'].isPrefixOf part then _ else _) = _
      cases ['<'].isPrefixOf part <;> rfl
    rw [anyPartMatches, hmatches, List.any_cons]
    cases ['<'].isPrefixOf part with
    | true => rfl
    | false => exact ih

/-- A compiler made a name that begins with its mark, or in which a part behind a period does. -/
def IsCompilerMade (identifier : String) : Prop :=
  ['<'] <+: identifier.toList ∨ ['.', '<'] <:+: identifier.toList

instance (identifier : String) : Decidable (IsCompilerMade identifier) :=
  inferInstanceAs (Decidable (_ ∨ _))

/-- The first dotted part begins as the text does, and the others as what stands behind periods. -/
theorem exists_dottedParts (cs : List Char) : ∃ first rest, dottedParts cs = first :: rest ∧
    (['<'] <+: first ↔ ['<'] <+: cs) ∧ ((∃ part ∈ rest, ['<'] <+: part) ↔ ['.', '<'] <:+: cs) := by
  induction cs with
  | nil => exact ⟨[], [], rfl, .rfl, by simp⟩
  | cons c cs ih =>
    obtain ⟨first, rest, hparts, hfirst, hrest⟩ := ih
    have hperiod : ['.', '<'] <+: c :: cs ↔ '.' = c ∧ ['<'] <+: cs := List.cons_prefix_cons
    rw [dottedParts, hparts, List.infix_cons_iff, ← hrest, hperiod]
    by_cases hc : c = '.'
    · subst hc
      refine ⟨[], first :: rest, rfl, by simp, ?_⟩
      rw [List.exists_mem_cons_iff, hfirst, eq_self, true_and]
    · refine ⟨c :: first, rest, if_neg (mt beq_iff_eq.mp hc), ?_, ?_⟩
      · rw [List.cons_prefix_cons, List.cons_prefix_cons]
        exact and_congr_right fun _ => ⟨fun _ => List.nil_prefix, fun _ => List.nil_prefix⟩
      · rw [eq_false (Ne.symm hc), false_and, false_or]

theorem isCompilerGenerated_default (identifier : String) :
    isCompilerGenerated .default identifier = .ok (decide (IsCompilerMade identifier)) := by
  obtain ⟨first, rest, hparts, hfirst, hrest⟩ := exists_dottedParts identifier.toList
  rw [isCompilerGenerated, anyPartMatches_default, hparts, Except.ok.injEq, Bool.eq_iff_iff,
    decide_eq_true_iff, IsCompilerMade, List.any_eq_true, List.exists_mem_cons_iff, ← hfirst, ← hrest]
  simp only [List.isPrefixOf_iff_prefix]

/-- What a compiler made has no identifier, so what has one is not passed over. -/
theorem StructuralRecord.skips_of_toIdentifier {r : StructuralRecord} {x : Identifier}
    (h : r.toIdentifier = .ok x) (v : NameFlags) :
    LoadOptions.skips { visibilities := v } r = .ok false := by
  obtain ⟨kind, y, -, -, hy, -⟩ := toIdentifier_eq_ok h
  have hnot : '<' ∉ r.identifier.toList :=
    Identifier.not_mem_of_parse (by decide) (by decide) (by decide) hy
  show anyPartMatches .default (dottedParts r.identifier.toList) = _
  rw [anyPartMatches_default, Except.ok.injEq, List.any_eq_false]
  intro part hpart hprefix
  exact hnot (mem_of_mem_dottedParts hpart
    ((List.isPrefixOf_iff_prefix.mp hprefix).subset List.mem_cons_self))

theorem StructuralRecord.mem_kept {records : List StructuralRecord} {r : StructuralRecord}
    (hr : r ∈ records) {place : Place} (hplace : r.place? = some place) (v : NameFlags) :
    r ∈ LoadOptions.kept { visibilities := v } records := by
  obtain ⟨x, hx⟩ := exists_toIdentifier_of_place? hplace
  rw [LoadOptions.kept, List.mem_filter, skips_of_toIdentifier hx]
  exact ⟨hr, rfl⟩

/-! ## Hidden declarations -/

namespace Catalog

theorem entityAt_filterVisibility_eq_none {c : Catalog} {v : NameFlags} {outer : Place} {e : Entity}
    (hat : c.entityAt outer = some e) (hhidden : e.identifier.flags.isVisible v = false)
    {place : Place} (hin : place.IsIn outer) : (c.filterVisibility v).entityAt place = none := by
  cases hshown : (c.filterVisibility v).entityAt place with
  | none => rfl
  | some _ =>
    have hsome := isSome_entityAt_of_isIn hin (Option.isSome_of_eq_some hshown)
    obtain ⟨e', hat'⟩ := Option.isSome_iff_exists.mp hsome
    obtain ⟨hbefore, hvisible⟩ := entityAt_of_filterVisibility hat'
    rw [hat, Option.some.injEq] at hbefore
    rw [← hbefore, hhidden] at hvisible
    cases hvisible

end Catalog

namespace Source

/-- The documentation is about what stands at a place or in it. -/
def Documents (s : Source) (outer : Place) : Prop :=
  ∃ r ∈ s.documentation, ∃ place, r.place? = some place ∧ place.IsIn outer

theorem isSome_entityAt_iff_documents {s : Source} {described : List Entity} {c : Catalog}
    (hdescribed : s.documentation.map (·.toEntity.outcome) = described.map .ok)
    (hd : Catalog.Connects described c) (outer : Place) :
    (c.entityAt outer).isSome ↔ s.Documents outer := by
  have hplaces : s.documentation.map (·.place?) = described.map (·.place?) :=
    map_eq_map_of_map_eq hdescribed fun _ _ hr => (DocumentationRecord.toEntity_outcome hr).2.2.1
  rw [hd.isSome_entityAt_iff]
  constructor
  · rintro ⟨e, he, place, hplace, hin⟩
    obtain ⟨r, hr, hrecord⟩ := exists_eq_of_map_eq hplaces.symm he
    exact ⟨r, hr, place, hrecord.trans hplace, hin⟩
  · rintro ⟨r, hr, place, hplace, hin⟩
    obtain ⟨e, he, hentity⟩ := exists_eq_of_map_eq hplaces hr
    exact ⟨e, he, place, hentity.trans hplace, hin⟩

/-- At and in the place of what is hidden stands what the documentation alone has there, which is
nothing when it has no record of it. -/
theorem load_hidden {s : Source} {v : NameFlags} {c : Catalog}
    (h : (s.load { visibilities := v }).outcome = .ok c) {r : StructuralRecord}
    (hr : r ∈ s.structural) {outer : Place} (houter : r.place? = some outer)
    (hhidden : r.flags.isVisible v = false) : ∃ documentation,
      (Catalog.ofDocumentation s.name s.documentation).outcome = .ok documentation ∧
      (∀ place, place.IsIn outer → c.entityAt place = documentation.entityAt place) ∧
      ((c.entityAt outer).isSome ↔ s.Documents outer) := by
  obtain ⟨structural, documentation, declared, described, hdeclared, hs, hdoc, hdescribed, hd,
    hjoined⟩ := load_halves h
  obtain ⟨e, he, hentity⟩ := exists_eq_of_map_eq hdeclared (StructuralRecord.mem_kept hr houter v)
  obtain ⟨hdeclares, hrecord, -⟩ := StructuralRecord.toEntity_outcome hentity.symm
  obtain ⟨place, hplace, hat⟩ := hs.present e he
  obtain rfl : outer = place := by
    rw [houter, hplace, Option.some.injEq] at hrecord
    exact hrecord
  have hinvisible : e.identifier.flags.isVisible v = false := by
    rw [StructuralRecord.isVisible_of_toIdentifier hdeclares.identifier, hhidden]
  have heq : ∀ place, place.IsIn outer → c.entityAt place = documentation.entityAt place := by
    intro place hin
    exact (Catalog.entityAt_filterVisibility_eq_none hat hinvisible hin ▸ hjoined place).eq_right
  refine ⟨documentation, hdoc, heq, ?_⟩
  rw [heq outer (.inl rfl), isSome_entityAt_iff_documents hdescribed hd]

/-- A private type. -/
def privateType : StructuralRecord := { kind := "type", identifier := "A", flags := .privateBit }

/-- A source in which a private type is documented. -/
def secret : Source where
  name := "lib"
  structural := [privateType]
  documentation := [{ identifier := "T:A", summary := some "A type." }]

theorem load_hidden_secret : ∃ c, (secret.load { visibilities := .publicBit }).outcome = .ok c ∧
    privateType ∈ secret.structural ∧ privateType.place? = some (.type "A") ∧
    privateType.flags.isVisible .publicBit = false ∧ ∃ documentation,
      (Catalog.ofDocumentation secret.name secret.documentation).outcome = .ok documentation ∧
      (∀ place, place.IsIn (.type "A") → c.entityAt place = documentation.entityAt place) ∧
      ((c.entityAt (.type "A")).isSome ↔ secret.Documents (.type "A")) := by
  obtain ⟨c, hc⟩ := exists_eq_ok_of_isOk
    (by cbv : (secret.load { visibilities := .publicBit }).outcome.isOk = true)
  have hr : privateType ∈ secret.structural := List.mem_cons_self
  have hplace : privateType.place? = some (.type "A") := by cbv
  have hhidden : privateType.flags.isVisible .publicBit = false := by decide
  exact ⟨c, hc, hr, hplace, hhidden, load_hidden hc hr hplace hhidden⟩

/-- What is hidden is not gone for good: it comes back when it is documented. -/
theorem not_forall_hidden_eq_none : ¬ ∀ (s : Source) (v : NameFlags) (c : Catalog),
    (s.load { visibilities := v }).outcome = .ok c → ∀ r ∈ s.structural, ∀ place,
      r.place? = some place → r.flags.isVisible v = false → c.entityAt place = none := by
  intro hall
  have hshown : (((secret.load { visibilities := .publicBit }).outcome.toOption).bind
      (·.entityAt (.type "A"))).isSome = true := by cbv
  obtain ⟨c, hc⟩ := exists_eq_ok_of_isOk
    (by cbv : (secret.load { visibilities := .publicBit }).outcome.isOk = true)
  have hnone := hall secret .publicBit c hc privateType List.mem_cons_self (.type "A") (by cbv)
    (by decide)
  rw [hc, Except.toOption, Option.bind_some, hnone] at hshown
  cases hshown

end Source

end ApiDocs
