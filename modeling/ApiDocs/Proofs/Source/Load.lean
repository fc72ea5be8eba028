import Mathlib
import ApiDocs.Proofs.Source.Hidden

/-!
# What loading keeps

A source is loaded in two halves, and merging the halves goes place by place.  So every record is
found again at its place, and whatever is found comes from a record.

* `Source.load_outcome`: what a loaded catalog comes from when nothing is hidden;
* `Source.load_places`: loading loses nothing and makes up nothing.
-/

namespace ApiDocs

namespace Source

/-- The structural records of which no compiler made the name. -/
def kept (s : Source) : List StructuralRecord :=
  s.structural.filter fun r => !decide (IsCompilerMade r.identifier)

/-- Those are the records that loading does not pass over. -/
theorem kept_eq (s : Source) : LoadOptions.kept {} s.structural = s.kept := by
  refine List.filter_congr fun r _ => ?_
  have hskips : LoadOptions.skips {} r = .ok (decide (IsCompilerMade r.identifier)) :=
    isCompilerGenerated_default r.identifier
  rw [hskips]

/-- A record that loading keeps is about what stands at a place. -/
def Names (s : Source) (place : Place) : Prop :=
  (∃ r ∈ s.kept, r.place? = some place) ∨ ∃ r ∈ s.documentation, r.place? = some place

/-- What a loaded catalog comes from when nothing is hidden. -/
theorem load_outcome {s : Source} {c : Catalog} (h : (s.load {}).outcome = .ok c) :
    ∃ structural documentation declared described,
      s.kept.map (·.toEntity) = declared.map .ok ∧ Catalog.Connects declared structural ∧
      s.documentation.map (·.toEntity.outcome) = described.map .ok ∧
      Catalog.Connects described documentation ∧
      ∀ place, Entity.Joined (structural.entityAt place) (documentation.entityAt place)
        (c.entityAt place) := by
  obtain ⟨structural, documentation, declared, described, hdeclared, hs, -, hdescribed, hd, hjoined⟩ :=
    load_halves h
  rw [Catalog.filterVisibility_allVisibilities] at hjoined
  rw [kept_eq] at hdeclared
  exact ⟨structural, documentation, declared, described, hdeclared, hs, hdescribed, hd, hjoined⟩

/-- Loading loses nothing and makes up nothing.  Every record has its place to itself within its half,
and what stands there declares what a structural record says and has the text of a documentation
record.  Whatever stands anywhere is at its own place, which is that of a record or that of the type
of a member which has a record. -/
theorem load_places {s : Source} {c : Catalog} (h : (s.load {}).outcome = .ok c) :
    ((s.kept.map (·.place?)).Nodup ∧ ∀ r ∈ s.kept, ∃ place e,
      r.place? = some place ∧ c.entityAt place = some e ∧ r.IsDeclaredBy e) ∧
    ((s.documentation.map (·.place?)).Nodup ∧ ∀ r ∈ s.documentation, ∃ place e,
      r.place? = some place ∧ c.entityAt place = some e ∧ r.IsTextOf e) ∧
    ∀ place e, c.entityAt place = some e → e.place? = some place ∧
      (s.Names place ∨ ∃ owner cls key, place = .type owner ∧ s.Names (.member cls owner key)) := by
  obtain ⟨structural, documentation, declared, described, hdeclared, hs, hdescribed, hd, hjoined⟩ :=
    load_outcome h
  have hplaces : s.kept.map (·.place?) = declared.map (·.place?) :=
    map_eq_map_of_map_eq hdeclared fun _ _ hr => (StructuralRecord.toEntity_outcome hr).2.1
  have hplaces' : s.documentation.map (·.place?) = described.map (·.place?) :=
    map_eq_map_of_map_eq hdescribed fun _ _ hr => (DocumentationRecord.toEntity_outcome hr).2.2.1
  refine ⟨⟨?_, ?_⟩, ⟨?_, ?_⟩, ?_⟩
  · rw [hplaces]
    exact hs.apart
  · intro r hr
    obtain ⟨e, he, hentity⟩ := exists_eq_of_map_eq hdeclared hr
    obtain ⟨hdeclares, hrecord, -⟩ := StructuralRecord.toEntity_outcome hentity.symm
    obtain ⟨place, hpos, hat⟩ := hs.present e he
    obtain ⟨e', hmerged, hkeeps⟩ := (hat ▸ hjoined place).exists_keeps
    exact ⟨place, e', hrecord.trans hpos, hmerged, hdeclares.of_keeps hkeeps⟩
  · rw [hplaces']
    exact hd.apart
  · intro r hr
    obtain ⟨e, he, hentity⟩ := exists_eq_of_map_eq hdescribed hr
    obtain ⟨hmetadata, hnamed, hrecord, -⟩ := DocumentationRecord.toEntity_outcome hentity.symm
    obtain ⟨place, hpos, hat⟩ := hd.present e he
    obtain ⟨e', hmerged, htext, hexceptions⟩ := (hat ▸ hjoined place).exists_text
    refine ⟨place, e', hrecord.trans hpos, hmerged, ?_, ?_⟩
    · intro hsome
      exact htext _ (hmetadata.trans (DocumentationRecord.metadata?_of_hasText hsome))
    · intro hsome
      rw [hexceptions (hnamed.ne_nil hsome)]
      exact hnamed
  · intro place e hat
    -- A place of an entity of either half is the place of its record.
    have hnames : ∀ place, (∃ e ∈ declared, e.place? = some place) → s.Names place := by
      rintro place ⟨e, he, hpos⟩
      obtain ⟨r, hr, hrecord⟩ := exists_eq_of_map_eq hplaces.symm he
      exact .inl ⟨r, hr, hrecord.trans hpos⟩
    have hnames' : ∀ place, (∃ e ∈ described, e.place? = some place) → s.Names place := by
      rintro place ⟨e, he, hpos⟩
      obtain ⟨r, hr, hrecord⟩ := exists_eq_of_map_eq hplaces'.symm he
      exact .inr ⟨r, hr, hrecord.trans hpos⟩
    rcases (hat ▸ hjoined place).origin with ⟨e', hat', hkeeps⟩ | hat'
    · refine ⟨hkeeps.place?_eq.trans (hs.origin place e' hat').1, ?_⟩
      refine (hs.exists_place hat').imp (hnames place) ?_
      rintro ⟨owner, cls, key, rfl, hmember⟩
      exact ⟨owner, cls, key, rfl, hnames _ hmember⟩
    · refine ⟨(hd.origin place e hat').1, ?_⟩
      refine (hd.exists_place hat').imp (hnames' place) ?_
      rintro ⟨owner, cls, key, rfl, hmember⟩
      exact ⟨owner, cls, key, rfl, hnames' _ hmember⟩

/-- A source with a method that both halves know, a property, a record that is passed over, and a
field that only documentation knows. -/
def mixed : Source where
  name := "mixed"
  structural := [
    { kind := "method", identifier := "A.f(int)" },
    { kind := "property", identifier := "A.p", accessors := (.publicBit, .privateBit) },
    { kind := "type", identifier := "A.<>c" }]
  documentation := [
    { identifier := "M:A.f(int)", summary := some "Text.", exceptions := [("T:E", none)] },
    { identifier := "F:B.g" }]

theorem load_places_mixed : ∃ c, (mixed.load {}).outcome = .ok c ∧
    ((mixed.kept.map (·.place?)).Nodup ∧ ∀ r ∈ mixed.kept, ∃ place e,
      r.place? = some place ∧ c.entityAt place = some e ∧ r.IsDeclaredBy e) ∧
    ((mixed.documentation.map (·.place?)).Nodup ∧ ∀ r ∈ mixed.documentation, ∃ place e,
      r.place? = some place ∧ c.entityAt place = some e ∧ r.IsTextOf e) ∧
    ∀ place e, c.entityAt place = some e → e.place? = some place ∧
      (mixed.Names place ∨
        ∃ owner cls key, place = .type owner ∧ mixed.Names (.member cls owner key)) := by
  obtain ⟨c, hc⟩ := exists_eq_ok_of_isOk (by cbv : (mixed.load {}).outcome.isOk = true)
  exact ⟨c, hc, load_places hc⟩

end Source

end ApiDocs
