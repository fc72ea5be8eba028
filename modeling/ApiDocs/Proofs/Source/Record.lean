import ApiDocs.Proofs.Catalog.Place
import ApiDocs.Proofs.Logged
import ApiDocs.Proofs.Source.Naming
import ApiDocs.Proofs.Text.Parts
import ApiDocs.Source.Documentation

/-!
# What records become

Every record becomes one entity.  Its kind and identifier, and so its place, can be told from the
record, and so can its text.

* `StructuralRecord.toEntity_outcome`, `DocumentationRecord.toEntity_outcome`: what an entity has of
  its record;
* `DocumentationRecord.NamesType`, `DocumentationRecord.AreExceptions`: how references name exceptions.
-/

namespace ApiDocs

open Text

/-! ## Structural records -/

namespace StructuralRecord

/-- The place of what a record declares. -/
def place? (r : StructuralRecord) : Option Place := do
  let kind ← (MemberKind.ofLabel r.kind).toOption
  let x ← r.toIdentifier.toOption
  Place.of? kind x

theorem exists_toIdentifier_of_place? {r : StructuralRecord} {place : Place}
    (h : r.place? = some place) : ∃ x, r.toIdentifier = .ok x := by
  rw [place?, Option.bind_eq_bind, Option.bind_eq_some_iff] at h
  obtain ⟨kind, -, h⟩ := h
  obtain ⟨x, hx, -⟩ := Option.bind_eq_some_iff.mp h
  exact ⟨x, eq_ok_of_toOption hx⟩

/-- An entity declares what a record says. -/
structure IsDeclaredBy (r : StructuralRecord) (e : Entity) : Prop where
  kind : MemberKind.ofLabel r.kind = .ok e.kind
  identifier : r.toIdentifier = .ok e.identifier
  /-- The flags are those that the text of the identifier shows, and all of the record. -/
  flags : ∃ x, Identifier.parse r.identifier (e.kind == .method) = .ok x ∧
    e.identifier.flags = x.flags ||| r.flags
  accessors : ∀ a, e.accessors? = some a → a = ⟨r.accessors.1, r.accessors.2⟩
  parameters : ∀ ps, e.parameters? = some ps →
    e.identifier.parameters.map Parameter.slot <+: ps.map ParameterDoc.slot

theorem IsDeclaredBy.of_keeps {r : StructuralRecord} {e e' : Entity} (h : r.IsDeclaredBy e)
    (hkeeps : e.Keeps e') : r.IsDeclaredBy e' := by
  refine ⟨?_, ?_, ?_, fun a ha => ?_, fun ps' hps' => ?_⟩
  · rw [hkeeps.kind, h.kind]
  · rw [hkeeps.identifier, h.identifier]
  · rw [hkeeps.kind, hkeeps.identifier]
    exact h.flags
  · rw [hkeeps.accessors] at ha
    exact h.accessors a ha
  · obtain ⟨ps, hps, hprefix⟩ := hkeeps.parameters ps' hps'
    rw [hkeeps.identifier]
    exact (h.parameters ps hps).trans hprefix

theorem map_slot_parameterDocs (x : Identifier) :
    (parameterDocs x).map ParameterDoc.slot = x.parameters.map Parameter.slot := by
  rw [parameterDocs, List.map_map]
  rfl

/-- What an entity has of its structural record. -/
theorem toEntity_outcome {r : StructuralRecord} {e : Entity} (h : r.toEntity = .ok e) :
    r.IsDeclaredBy e ∧ r.place? = e.place? ∧ ∀ t, e = .type t → t.members = {} := by
  simp only [toEntity, bind_eq_ok_iff] at h
  obtain ⟨kind, hkind, x, hx, h⟩ := h
  have hplace : r.place? = Place.of? kind x := by
    rw [place?, hkind, hx]
    rfl
  obtain ⟨kind', y, z, hkind', hy, -, -, hparts, -⟩ := toIdentifier_eq_ok hx
  cases hkind.symm.trans hkind'
  have hshape : e.kind = kind ∧ e.identifier = x ∧ e.place? = Place.of? kind x := by
    cases kind <;> cases h <;> exact ⟨rfl, rfl, rfl⟩
  have haccessors : ∀ a, e.accessors? = some a → a = ⟨r.accessors.1, r.accessors.2⟩ := by
    intro a ha
    cases kind <;> cases h <;> cases ha <;> rfl
  have hparameters : ∀ ps, e.parameters? = some ps →
      x.parameters.map Parameter.slot <+: ps.map ParameterDoc.slot := by
    intro ps hps
    cases kind <;> cases h <;> cases hps
    exact map_slot_parameterDocs x ▸ List.prefix_refl _
  have hmembers : ∀ t, e = .type t → t.members = {} := by
    rintro t rfl
    cases kind <;> cases h
    rfl
  obtain ⟨rfl, rfl, hpos⟩ := hshape
  have hflags := congrArg Identifier.flags hparts
  exact ⟨⟨hkind, hx, ⟨y, hy, hflags⟩, haccessors, hparameters⟩, hplace.trans hpos.symm, hmembers⟩

end StructuralRecord

/-! ## Documentation records -/

namespace DocumentationRecord

/-- The place of what a record is about. -/
def place? (r : DocumentationRecord) : Option Place := do
  let id ← (MemberId.parse r.identifier).toOption
  Place.of? id.kind id.identifier

/-- A reference names a type by a path: behind the prefix for types, or without a prefix.  Blanks around
it do not count. -/
inductive NamesType (cref path : String) : Prop
  | prefixed (h : IsCore ("T:" ++ path) cref)
  | bare (h : IsCore path cref)
    (hbare : ∀ letter rest, symbols path.toList ≠ letter :: .char ':' :: rest)

/-- Exceptions come from references in their order, each with its text; what names no type is left
out. -/
inductive AreExceptions : List (String × Option String) → List ExceptionDoc → Prop
  | nil : AreExceptions [] []
  | named {cref path : String} {description : Option String} {x : Identifier}
    {refs : List (String × Option String)} {es : List ExceptionDoc} (hpath : NamesType cref path)
    (hx : Identifier.parse path = .ok x) (h : AreExceptions refs es) :
    AreExceptions ((cref, description) :: refs) ({ cref := x, description } :: es)
  | unnamed {cref : String} {description : Option String} {refs : List (String × Option String)}
    {es : List ExceptionDoc} (hno : ∀ path, ¬ NamesType cref path) (h : AreExceptions refs es) :
    AreExceptions ((cref, description) :: refs) es

/-- What is read of a reference to a type is the path by which it names the type. -/
theorem exists_namesType {cref : String} (h : isTypeCref cref = true) :
    ∃ path, NamesType cref path ∧ exceptionIdentifier cref = Identifier.parse path := by
  rw [exceptionIdentifier]
  split
  · next body hbody =>
    refine ⟨String.ofList body, .prefixed (isCore_iff.mpr (String.toList_inj.mp ?_)), rfl⟩
    rw [hbody, String.toList_append]
    exact congrArg (['T', ':'] ++ ·) String.toList_ofList
  · next hne =>
    refine ⟨strip cref, .bare (isCore_iff.mpr rfl) fun letter rest hsymbols => ?_, rfl⟩
    rw [isTypeCref, hsymbols] at h
    obtain rfl := beq_iff_eq.mp h
    obtain ⟨cs, hcs, hrest⟩ := exists_of_symbols_eq_cons (by decide) hsymbols
    obtain ⟨body, rfl, -⟩ := exists_of_symbols_eq_cons (by decide) hrest
    exact hne body hcs

theorem isTypeCref_of_namesType {cref path : String} (h : NamesType cref path) :
    isTypeCref cref = true := by
  rw [isTypeCref]
  cases h with
  | prefixed h =>
    have hsymbols : symbols (strip cref).toList = .char 'T' :: .char ':' :: symbols path.toList := by
      rw [← isCore_iff.mp h, String.toList_append, ← symbols_cons_of_ne (by decide),
        ← symbols_cons_of_ne (by decide)]
      rfl
    rw [hsymbols]
    rfl
  | bare h hbare =>
    rw [← isCore_iff.mp h]
    split
    · next letter rest hsymbols => exact absurd hsymbols (hbare letter rest)
    · rfl

/-- The exceptions of a record are those that its references name. -/
theorem areExceptions_of_exceptionDocs {r : DocumentationRecord} {refs : List (String × Option String)}
    {es : List ExceptionDoc} (h : (r.exceptionDocs refs).outcome = .ok es) : AreExceptions refs es := by
  induction refs generalizing es with
  | nil =>
    cases h
    exact .nil
  | cons ref refs ih =>
    obtain ⟨cref, description⟩ := ref
    rw [exceptionDocs] at h
    split at h
    · next hcref =>
      obtain ⟨path, hpath, hparse⟩ := exists_namesType hcref
      simp only [Logged.bind_eq_ok_iff, Logged.outcome_ofExcept, mapError_eq_ok_iff,
        Logged.outcome_pure, Except.ok.injEq] at h
      obtain ⟨x, hx, es, hes, rfl⟩ := h
      exact .named hpath (hparse.symm.trans hx) (ih hes)
    · next hcref =>
      simp only [Logged.bind_eq_ok_iff, Logged.outcome_emit] at h
      obtain ⟨-, -, h⟩ := h
      exact .unnamed (fun path hpath => hcref (isTypeCref_of_namesType hpath)) (ih h)

/-- A reference that names a type makes an exception. -/
theorem AreExceptions.ne_nil {refs : List (String × Option String)} {es : List ExceptionDoc}
    (h : AreExceptions refs es) (hsome : ∃ ref ∈ refs, ∃ path, NamesType ref.1 path) : es ≠ [] := by
  induction h with
  | nil =>
    obtain ⟨ref, hmem, -⟩ := hsome
    cases hmem
  | named => exact List.cons_ne_nil _ _
  | unnamed hno _ ih =>
    obtain ⟨ref, hmem, path, hpath⟩ := hsome
    rcases List.mem_cons.mp hmem with rfl | hmem
    · exact absurd hpath (hno path)
    · exact ih ⟨ref, hmem, path, hpath⟩

/-- What a record says, each text in its place. -/
def texts (r : DocumentationRecord) : Metadata where
  summary := r.summary
  remarks := r.remarks
  exampleText := r.exampleText
  see := r.see
  seeAlso := r.seeAlso

/-- Some of the texts of a record is there and not empty. -/
def HasText (r : DocumentationRecord) : Prop :=
  ∃ text ∈ [r.summary, r.remarks, r.exampleText, r.see, r.seeAlso], ∃ s, text = some s ∧ s ≠ ""

theorem metadata?_of_hasText {r : DocumentationRecord} (h : r.HasText) : r.metadata? = some r.texts := by
  rw [metadata?]
  refine if_neg fun hempty => ?_
  obtain ⟨text, hmem, s, rfl, hs⟩ := h
  have hall : ∀ text ∈ [r.summary, r.remarks, r.exampleText, r.see, r.seeAlso],
      (text.getD "").isEmpty = true := by
    simpa [Metadata.isEmpty, Metadata.fields] using hempty
  exact hs (String.isEmpty_iff.mp (hall _ hmem))

/-- An entity has the text of a record: all of it when there is some, and the exceptions that are named
when there are some. -/
structure IsTextOf (r : DocumentationRecord) (e : Entity) : Prop where
  metadata : r.HasText → e.metadata = some r.texts
  exceptions : (∃ ref ∈ r.exceptions, ∃ path, NamesType ref.1 path) →
    AreExceptions r.exceptions e.exceptions

/-- What an entity has of its documentation record. -/
theorem toEntity_outcome {r : DocumentationRecord} {e : Entity} (h : r.toEntity.outcome = .ok e) :
    e.metadata = r.metadata? ∧ AreExceptions r.exceptions e.exceptions ∧
      r.place? = e.place? ∧ ∀ t, e = .type t → t.members = {} := by
  simp only [toEntity, Logged.bind_eq_ok_iff, Logged.outcome_ofExcept, mapError_eq_ok_iff,
    Logged.outcome_pure, Except.ok.injEq] at h
  obtain ⟨⟨kind, x⟩, hid, es, hes, rfl⟩ := h
  have hplace : r.place? = Place.of? kind x := by
    rw [place?, hid]
    rfl
  refine ⟨?_, ?_, ?_, ?_⟩
  · cases kind <;> rfl
  · have hexceptions := areExceptions_of_exceptionDocs hes
    cases kind <;> exact hexceptions
  · rw [hplace]
    cases kind <;> rfl
  · intro t ht
    cases kind <;> cases ht
    rfl

end DocumentationRecord

end ApiDocs
