import Mathlib
import ApiDocs.Proofs.Catalog.Order
import ApiDocs.Proofs.Identifier.Parent
import ApiDocs.Proofs.Source.Hidden
import ApiDocs.Proofs.Source.Isolation

/-!
# The order of records

The records of either half of a source may come in any order.  Whether the half can be loaded does not
depend on it.  What comes of it depends on the order only in the types that are made for members, and
these are made by the member that comes first.

* `Catalog.exists_ofStructural`, `Catalog.exists_ofDocumentation`: records that make entities with
  places of their own can be loaded;
* `Agrees`: two ways to load a half both succeed or both fail with an error of the source;
* `Catalog.agrees_of_perm`: the order of the records does not matter.
-/

namespace ApiDocs

variable {options : LoadOptions}

/-! ## Entities of all records -/

/-- When every record that is kept makes an entity, all entities are made. -/
theorem Entities.exists_ofStructural (hprefixes : options.HasTextPrefixes) (source : String)
    {records : List StructuralRecord} {l : List Entity}
    (hl : (options.kept records).map (·.toEntity) = l.map .ok) :
    ∃ es, ofStructural source options records = .ok es := by
  induction records generalizing l with
  | nil => exact ⟨{}, rfl⟩
  | cons r rest ih =>
    obtain ⟨skipped, hskips⟩ := hprefixes.exists_skips r
    rw [LoadOptions.kept, List.filter_cons, hskips] at hl
    rw [ofStructural, hskips]
    cases skipped with
    | true =>
      obtain ⟨es, hes⟩ := ih hl
      exact ⟨_, bind_eq_ok_iff.mpr ⟨true, rfl, bind_eq_ok_iff.mpr ⟨es, hes, rfl⟩⟩⟩
    | false =>
      cases l with
      | nil => cases hl
      | cons e l =>
        obtain ⟨hr, hrest⟩ := List.cons.inj hl
        obtain ⟨es, hes⟩ := ih hrest
        exact ⟨_, bind_eq_ok_iff.mpr ⟨false, rfl,
          bind_eq_ok_iff.mpr ⟨e, mapError_eq_ok_iff.mpr hr, bind_eq_ok_iff.mpr ⟨es, hes, rfl⟩⟩⟩⟩

/-- When every record makes an entity, all entities are made. -/
theorem exists_documentedEntities (source : String) {records : List DocumentationRecord}
    {l : List Entity} (hl : records.map (·.toEntity.outcome) = l.map .ok) :
    ∃ es, (documentedEntities source records).outcome = .ok es := by
  induction records generalizing l with
  | nil => exact ⟨([], []), rfl⟩
  | cons r rest ih =>
    cases l with
    | nil => cases hl
    | cons e l =>
      obtain ⟨hr, hrest⟩ := List.cons.inj hl
      obtain ⟨es, hes⟩ := ih hrest
      rw [documentedEntities]
      exact ⟨_, Logged.bind_eq_ok_iff.mpr ⟨e, mapError_eq_ok_iff.mpr hr,
        Logged.bind_eq_ok_iff.mpr ⟨es, hes, rfl⟩⟩⟩

namespace Catalog

theorem eq_of_map_ok_eq {ε α : Type} {xs ys : List α}
    (h : xs.map (Except.ok (ε := ε)) = ys.map .ok) : xs = ys :=
  List.map_injective_iff.mpr (fun _ _ heq => Except.ok.inj heq) h

/-- The entities of types and members can be connected as those of a list that is the same but for the
order. -/
theorem exists_connect_of_perm {types : List TypeDoc} {members : List AnyMember} {l : List Entity}
    {c : Catalog} (hperm : l.Perm (entitiesOf types members)) (hc : Connects l c)
    (hmembers : ∀ t, .type t ∈ l → t.members = {}) :
    ∃ d, (connect types members).outcome = .ok d := by
  have hc' := hc.perm hperm
  refine exists_connect (fun t ht => hmembers t ?_) (fun e he => ?_) hc'.apart
  · exact hperm.mem_iff.mpr (mem_entitiesOf_of_mem_types ht members)
  · obtain ⟨place, hplace, -⟩ := hc'.present e he
    exact ⟨place, hplace⟩

/-- Structural records can be loaded when their entities, in some order, can be connected. -/
theorem exists_ofStructural (hprefixes : options.HasTextPrefixes) (source : String)
    {records : List StructuralRecord} {l l' : List Entity} {c : Catalog}
    (hl : (options.kept records).map (·.toEntity) = l.map .ok) (hperm : l'.Perm l)
    (hc : Connects l' c) : ∃ d, (ofStructural source options records).outcome = .ok d := by
  obtain ⟨es, hes⟩ := Entities.exists_ofStructural hprefixes source hl
  obtain ⟨l'', hl'', hperm'⟩ := Entities.ofStructural_outcome hes
  obtain rfl := eq_of_map_ok_eq (hl.symm.trans hl'')
  have hmembers : ∀ t, Entity.type t ∈ l → t.members = {} := by
    intro t ht
    obtain ⟨r, -, hr⟩ := exists_eq_of_map_eq hl.symm ht
    exact (StructuralRecord.toEntity_outcome hr).2.2 t rfl
  obtain ⟨d, hd⟩ := exists_connect_of_perm hperm' (hc.perm hperm) hmembers
  have hconnect : ((connect es.types es.members).mapError (LoadError.ofSource source) >>=
      fun c => pure (c.filterVisibility options.visibilities)).outcome =
        .ok (d.filterVisibility options.visibilities) :=
    Logged.bind_eq_ok_iff.mpr ⟨d, mapError_eq_ok_iff.mpr hd, rfl⟩
  refine ⟨d.filterVisibility options.visibilities, Logged.bind_eq_ok_iff.mpr ⟨es, hes, ?_⟩⟩
  dsimp only
  split
  · exact Logged.bind_eq_ok_iff.mpr ⟨(), rfl, hconnect⟩
  · exact hconnect

/-- Documentation records can be loaded when their entities, in some order, can be connected. -/
theorem exists_ofDocumentation (source : String) {records : List DocumentationRecord}
    {l l' : List Entity} {c : Catalog} (hl : records.map (·.toEntity.outcome) = l.map .ok)
    (hperm : l'.Perm l) (hc : Connects l' c) :
    ∃ d, (ofDocumentation source records).outcome = .ok d := by
  obtain ⟨⟨types, members⟩, hes⟩ := exists_documentedEntities source hl
  obtain ⟨l'', hl'', hperm'⟩ := documentedEntities_outcome hes
  obtain rfl := eq_of_map_ok_eq (hl.symm.trans hl'')
  have hmembers : ∀ t, Entity.type t ∈ l → t.members = {} := by
    intro t ht
    obtain ⟨r, -, hr⟩ := exists_eq_of_map_eq hl.symm ht
    exact (DocumentationRecord.toEntity_outcome hr).2.2.2 t rfl
  obtain ⟨d, hd⟩ := exists_connect_of_perm hperm' (hc.perm hperm) hmembers
  exact ⟨d, Logged.bind_eq_ok_iff.mpr ⟨_, hes,
    Logged.bind_eq_ok_iff.mpr ⟨(), rfl, mapError_eq_ok_iff.mpr hd⟩⟩⟩

end Catalog

/-! ## Types that are made for members -/

/-- The type around a declared member is shown, whatever is asked for: the spelling of a path says nothing
about visibility. -/
theorem StructuralRecord.isVisible_of_parent? {r : StructuralRecord} {x parent : Identifier}
    (h : r.toIdentifier = .ok x) (hparent : x.parent? = some parent) (v : NameFlags) :
    parent.flags.isVisible v = true := by
  obtain ⟨kind, y, _, -, hy, -, rfl, hx, -⟩ := toIdentifier_eq_ok h
  have hrenamed : x.parent? = y.parent?.map (·.rename (realName y.genericNames r.genericNames)) := by
    rw [← Identifier.parent?_rename, hx]
    rfl
  rw [hrenamed, Option.map_eq_some_iff] at hparent
  obtain ⟨p, hp, rfl⟩ := hparent
  obtain ⟨outer, s, rfl⟩ := Identifier.exists_eq_ofPath_of_parent? hy hp
  have hflags : s.name.flags.overlaps .allVisibilities = false := s.name.overlaps_flags
  show NameFlags.isVisible s.name.flags v = true
  rw [NameFlags.isVisible, hflags]
  rfl

theorem DocumentationRecord.exists_parse_of_toEntity_outcome {r : DocumentationRecord} {e : Entity}
    (h : r.toEntity.outcome = .ok e) :
    ∃ body isMethod, Identifier.parse body isMethod = .ok e.identifier := by
  simp only [toEntity, Logged.bind_eq_ok_iff, Logged.outcome_ofExcept, mapError_eq_ok_iff,
    Logged.outcome_pure, Except.ok.injEq] at h
  obtain ⟨⟨kind, x⟩, hid, es, -, rfl⟩ := h
  obtain ⟨body, hbody⟩ := MemberId.exists_parse hid
  refine ⟨body, _, hbody.trans ?_⟩
  cases kind <;> rfl

namespace Catalog

theorem isShown_of_isMade {records : List StructuralRecord} {l : List Entity}
    (hl : records.map (·.toEntity) = l.map .ok) (v : NameFlags) {t : TypeDoc} (ht : IsMade l t) :
    t.isShown v = true := by
  obtain ⟨m, parent, hm, hparent, rfl⟩ := ht
  obtain ⟨r, -, hr⟩ := exists_eq_of_map_eq hl.symm hm
  exact StructuralRecord.isVisible_of_parent? (StructuralRecord.toEntity_outcome hr).1.identifier
    hparent v

/-- A type that is made for a documented member goes by its key. -/
theorem key_eq_text_of_isMade {records : List DocumentationRecord} {l : List Entity}
    (hl : records.map (·.toEntity.outcome) = l.map .ok) {t : TypeDoc} (ht : IsMade l t) :
    t.key = t.identifier.text := by
  obtain ⟨m, parent, hm, hparent, rfl⟩ := ht
  obtain ⟨r, -, hr⟩ := exists_eq_of_map_eq hl.symm hm
  obtain ⟨body, isMethod, hbody⟩ := DocumentationRecord.exists_parse_of_toEntity_outcome hr
  exact Identifier.canonicalKey_eq_text_of_parent? hbody hparent

end Catalog

/-! ## Any order -/

/-- Two ways to load a half of a source come to catalogs that are related, or both fail with an error of
the source. -/
inductive Agrees (name : String) (R : Catalog → Catalog → Prop) :
    Except LoadError Catalog → Except LoadError Catalog → Prop
  | ok {c d : Catalog} (h : R c d) : Agrees name R (.ok c) (.ok d)
  | error {e f : LoadError} (he : e.IsAbout name) (hf : f.IsAbout name) :
      Agrees name R (.error e) (.error f)

theorem agrees_of_exists {name : String} {R : Catalog → Catalog → Prop}
    {x y : Except LoadError Catalog} (hx : FailsOnly x (LoadError.IsAbout name))
    (hy : FailsOnly y (LoadError.IsAbout name)) (hxy : ∀ c, x = .ok c → ∃ d, y = .ok d)
    (hyx : ∀ d, y = .ok d → ∃ c, x = .ok c) (h : ∀ c d, x = .ok c → y = .ok d → R c d) :
    Agrees name R x y := by
  cases x with
  | ok c =>
    obtain ⟨d, rfl⟩ := hxy c rfl
    exact .ok (h c d rfl rfl)
  | error e =>
    cases y with
    | ok d =>
      obtain ⟨c, hc⟩ := hyx d rfl
      cases hc
    | error f => exact .error (hx e rfl) (hy f rfl)

/-- The types around all members that are kept have records of their own that are kept. -/
def LoadOptions.OwnsMembers (options : LoadOptions) (records : List StructuralRecord) : Prop :=
  ∀ cls owner key, (∃ r ∈ options.kept records, r.place? = some (.member cls owner key)) →
    ∃ r ∈ options.kept records, r.place? = some (.type owner)

namespace Catalog

theorem exists_ofStructural_of_perm (hprefixes : options.HasTextPrefixes) {source : String}
    {records records' : List StructuralRecord} (hperm : records.Perm records') {c : Catalog}
    (h : (ofStructural source options records).outcome = .ok c) :
    ∃ d, (ofStructural source options records').outcome = .ok d := by
  obtain ⟨c₀, l, -, hl, hc⟩ := ofStructural_outcome h
  obtain ⟨l', hl', hperm'⟩ := exists_perm_of_map_eq hl (hperm.symm.filter _)
  exact exists_ofStructural hprefixes source hl' hperm'.symm hc

theorem exists_ofDocumentation_of_perm {source : String} {records records' : List DocumentationRecord}
    (hperm : records.Perm records') {c : Catalog}
    (h : (ofDocumentation source records).outcome = .ok c) :
    ∃ d, (ofDocumentation source records').outcome = .ok d := by
  obtain ⟨l, hl, hc⟩ := ofDocumentation_outcome h
  obtain ⟨l', hl', hperm'⟩ := exists_perm_of_map_eq hl hperm.symm
  exact exists_ofDocumentation source hl' hperm'.symm hc

/-- What documentation comes to is equal in any order of its records. -/
theorem beq_of_perm {source : String} {records records' : List DocumentationRecord}
    (hperm : records.Perm records') {c d : Catalog}
    (hc : (ofDocumentation source records).outcome = .ok c)
    (hd : (ofDocumentation source records').outcome = .ok d) : (c == d) = true := by
  obtain ⟨l, hl, hc⟩ := ofDocumentation_outcome hc
  obtain ⟨l', hl', hd⟩ := ofDocumentation_outcome hd
  obtain ⟨l'', hl'', hperm'⟩ := exists_perm_of_map_eq hl' hperm
  obtain rfl := eq_of_map_ok_eq (hl.symm.trans hl'')
  refine hc.beq_of_made (hd.perm hperm'.symm) fun t u ht hu hkey => ?_
  rw [key_eq_text_of_isMade hl ht, key_eq_text_of_isMade hl hu] at hkey
  show (t.identifier.text == u.identifier.text) = true
  exact beq_iff_eq.mpr hkey

/-- What is declared is the same in any order of the records, but for the types that are made. -/
theorem map_members_eq_of_perm {source : String} {records records' : List StructuralRecord}
    (hperm : records.Perm records') {c d : Catalog}
    (hc : (ofStructural source options records).outcome = .ok c)
    (hd : (ofStructural source options records').outcome = .ok d) :
    (∀ key, (c.table.get? key).map (·.members) = (d.table.get? key).map (·.members)) ∧
      (options.OwnsMembers records → c = d) := by
  obtain ⟨c₀, l, rfl, hl, hc⟩ := ofStructural_outcome hc
  obtain ⟨d₀, l', rfl, hl', hd⟩ := ofStructural_outcome hd
  obtain ⟨l'', hl'', hperm'⟩ := exists_perm_of_map_eq hl' (hperm.filter _)
  obtain rfl := eq_of_map_ok_eq (hl.symm.trans hl'')
  have hd := hd.perm hperm'.symm
  refine ⟨hc.map_members_filterVisibility hd fun t ht => isShown_of_isMade hl _ ht, fun howns => ?_⟩
  have hplaces : (options.kept records).map (·.place?) = l.map (·.place?) :=
    map_eq_map_of_map_eq hl fun _ _ hr => (StructuralRecord.toEntity_outcome hr).2.1
  rw [hc.eq_of_owned hd]
  intro cls owner key hmember
  rw [← hplaces, List.mem_map] at hmember ⊢
  exact howns cls owner key hmember

theorem keys_eq_of_map_members_eq {c d : Catalog}
    (h : ∀ key, (c.table.get? key).map (·.members) = (d.table.get? key).map (·.members)) :
    c.keys = d.keys := by
  refine KeyTable.keys_eq_of_isSome fun key => ?_
  rw [← Option.isSome_map (f := TypeDoc.members), h key, Option.isSome_map]

/-- The order of the records does not matter.  Documentation in another order fails as well or comes to
an equal catalog.  Declarations in another order, as long as prefixes and names of parameters are texts,
fail as well or come to a catalog with the same keys and with the same members under each key, which is
the same catalog when no type has to be made for a member. -/
theorem agrees_of_perm (source : String) :
    (∀ records records' : List DocumentationRecord, records.Perm records' →
      Agrees source (fun c d => (c == d) = true) (ofDocumentation source records).outcome
        (ofDocumentation source records').outcome) ∧
    ∀ (options : LoadOptions) (records records' : List StructuralRecord), options.HasTextPrefixes →
      (∀ r ∈ records, r.HasTextNames) → records.Perm records' →
      Agrees source (fun c d => c.keys = d.keys ∧
          (∀ key, (c.table.get? key).map (·.members) = (d.table.get? key).map (·.members)) ∧
          (options.OwnsMembers records → c = d))
        (ofStructural source options records).outcome
        (ofStructural source options records').outcome := by
  constructor
  · intro records records' hperm
    exact agrees_of_exists (failsOnly_ofDocumentation source records)
      (failsOnly_ofDocumentation source records') (fun _ => exists_ofDocumentation_of_perm hperm)
      (fun _ => exists_ofDocumentation_of_perm hperm.symm) fun _ _ => beq_of_perm hperm
  · intro options records records' hprefixes hnames hperm
    have hkept : ∀ r ∈ options.kept records, r.HasTextNames := fun r hr =>
      hnames r (List.mem_of_mem_filter hr)
    have hkept' : ∀ r ∈ options.kept records', r.HasTextNames := fun r hr =>
      hnames r (hperm.mem_iff.mpr (List.mem_of_mem_filter hr))
    refine agrees_of_exists (failsOnly_ofStructural hprefixes source hkept)
      (failsOnly_ofStructural hprefixes source hkept')
      (fun _ => exists_ofStructural_of_perm hprefixes hperm)
      (fun _ => exists_ofStructural_of_perm hprefixes hperm.symm) fun c d hc hd => ?_
    obtain ⟨hmembers, heq⟩ := map_members_eq_of_perm hperm hc hd
    exact ⟨keys_eq_of_map_members_eq hmembers, hmembers, heq⟩

/-- Two fields of one type, which calls its generic parameter differently in their records. -/
def twoNames : List StructuralRecord := [
  { kind := "field", identifier := "A`1.f", genericNames := ["T"] },
  { kind := "field", identifier := "A`1.g", genericNames := ["U"] }]

/-- The documentation of two members of one type. -/
def twoMembers : List DocumentationRecord := [{ identifier := "M:A.f" }, { identifier := "F:A.g" }]

theorem agrees_of_perm_of_two :
    (∃ c, (ofDocumentation "lib" twoMembers).outcome = .ok c) ∧
    (∃ c, (ofStructural "lib" {} twoNames).outcome = .ok c) ∧
    twoMembers.Perm twoMembers.reverse ∧ ({} : LoadOptions).HasTextPrefixes ∧
    (∀ r ∈ twoNames, r.HasTextNames) ∧ twoNames.Perm twoNames.reverse ∧
    Agrees "lib" (fun c d => (c == d) = true) (ofDocumentation "lib" twoMembers).outcome
      (ofDocumentation "lib" twoMembers.reverse).outcome ∧
    Agrees "lib" (fun c d => c.keys = d.keys ∧
        (∀ key, (c.table.get? key).map (·.members) = (d.table.get? key).map (·.members)) ∧
        (({} : LoadOptions).OwnsMembers twoNames → c = d))
      (ofStructural "lib" {} twoNames).outcome (ofStructural "lib" {} twoNames.reverse).outcome := by
  have hprefixes := @LoadOptions.hasTextPrefixes_of_default {} rfl
  have hnames : ∀ r ∈ twoNames, r.HasTextNames := by
    have hplain : ∀ r ∈ twoNames, r.parameters = [] := by decide
    exact fun r hr => StructuralRecord.hasTextNames_of_eq_nil (hplain r hr)
  have hmembers := twoMembers.reverse_perm.symm
  have hfields := twoNames.reverse_perm.symm
  exact ⟨exists_eq_ok_of_isOk (by cbv), exists_eq_ok_of_isOk (by cbv), hmembers, hprefixes, hnames,
    hfields, (agrees_of_perm "lib").1 _ _ hmembers,
    (agrees_of_perm "lib").2 {} _ _ hprefixes hnames hfields⟩

end Catalog

end ApiDocs
