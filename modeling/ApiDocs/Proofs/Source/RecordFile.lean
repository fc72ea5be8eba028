import ApiDocs.Proofs.Record.Shape
import ApiDocs.Proofs.Source.Isolation
import ApiDocs.Source.RecordFile

/-!
# A malformed file condemns itself

What is wrong with a file of records is an error about that file, whatever the file says, as long as the
records in it have the shape of records (`Source.IsShapedFile`).

* `Source.failsOnly_ofFile`: a file with shaped records fails with an error about itself;
* `Source.ofDatum_of_not_hasFields`: a record without fields is no such error.
-/

namespace ApiDocs

namespace Source

/-- A document whose records have their shape and whose name can be written. -/
structure IsShaped (document : Datum) : Prop where
  structural : ∀ v rs, document.field "structural" = .ok v → v.optionalElements = .ok rs →
    ∀ r ∈ rs, StructuralRecord.IsShaped r
  documentation : ∀ v rs, document.field "documentation" = .ok v → v.optionalElements = .ok rs →
    ∀ r ∈ rs, DocumentationRecord.IsShaped r
  name : ∀ v, document.field "name" = .ok v → v.isGiven = true → v.isWritable = true

/-- A file whose text, if it has one, is a document with shaped records or breaks the rules of its
format. -/
def IsShapedFile (view : View) (path : Path) : Prop :=
  ∀ content, view.read path = .ok content →
    FailsOnly (Datum.ofYaml content) (· = .malformedDocument) ∧
      ∀ document, Datum.ofYaml content = .ok document → IsShaped document

/-! ## Documents -/

theorem failsOnly_recordsUnder {α : Type} {key : String} {read : Datum → Except Fault α} {d : Datum}
    (hd : d.HasFields) (hread : ∀ v rs, d.field key = .ok v → v.optionalElements = .ok rs →
      ∀ r ∈ rs, FailsOnly (read r) Fault.IsOfShape) :
    FailsOnly (recordsUnder key read d) Fault.IsOfShape := by
  refine (hd.failsOnly_field key).bind fun v hv => ?_
  refine v.failsOnly_optionalElements.bind fun rs hrs => ?_
  exact failsOnly_mapM (hread v rs hv hrs)

theorem failsOnly_recordsOfDatum {d : Datum} (hd : d.HasFields) (h : IsShaped d) :
    FailsOnly (recordsOfDatum d) Fault.IsOfShape := by
  refine (failsOnly_recordsUnder hd fun v rs hv hrs r hr => ?_).bind fun _ _ => ?_
  · exact StructuralRecord.failsOnly_ofDatum (h.structural v rs hv hrs r hr)
  · refine (failsOnly_recordsUnder hd fun v rs hv hrs r hr => ?_).bind fun _ _ => failsOnly_ok _
    exact DocumentationRecord.failsOnly_ofDatum (h.documentation v rs hv hrs r hr)

theorem exists_nameOfDatum {path : Path} {entries : List (Datum × Datum)}
    (h : IsShaped (.map entries)) : ∃ name, nameOfDatum path entries = .ok name := by
  rw [nameOfDatum]
  split
  · next hgiven =>
    rw [Datum.written, if_pos (h.name _ rfl hgiven)]
    exact ⟨_, rfl⟩
  · exact ⟨_, rfl⟩

theorem LoadError.isAbout_ofShape (name : String) {f : Fault} (h : f.IsOfShape) :
    (LoadError.ofShape name f).IsAbout name := by
  obtain ⟨hfield, hendless⟩ := h
  cases f <;> first | exact absurd rfl hfield | exact absurd rfl hendless | rfl

theorem IsShaped.of_opened {d : Datum} {entries : List (Datum × Datum)} (h : IsShaped d)
    (hopened : d.opened = .map entries) : IsShaped (.map entries) := by
  have hfield : ∀ key, (Datum.map entries).field key = d.field key := by
    intro key
    rw [Datum.field, Datum.field, hopened]
    rfl
  exact ⟨by rw [hfield]; exact h.structural, by rw [hfield]; exact h.documentation,
    by rw [hfield]; exact h.name⟩

theorem isShaped_empty : IsShaped (.map []) := by
  refine ⟨fun v rs hv hrs r hr => ?_, fun v rs hv hrs r hr => ?_, fun v hv hgiven => ?_⟩
  · cases hv
    cases hrs
    cases hr
  · cases hv
    cases hrs
    cases hr
  · cases hv
    cases hgiven

theorem failsOnly_ofDatum (path : Path) {document : Datum} (h : IsShaped document) :
    FailsOnly (ofDatum path document) (LoadError.IsAbout path.text) := by
  rw [ofDatum]
  split
  · next entries hentries =>
    have hshaped : IsShaped (.map entries) := by
      split at hentries
      · exact h.of_opened hentries
      · cases hentries
        exact isShaped_empty
    obtain ⟨name, hname⟩ := @exists_nameOfDatum path _ hshaped
    rw [hname]
    refine FailsOnly.bind ?_ fun _ _ => failsOnly_ok _
    have hfields := Datum.hasFields_map entries
    exact (failsOnly_recordsOfDatum hfields hshaped).mapError fun _ => LoadError.isAbout_ofShape _
  · exact failsOnly_error rfl

/-! ## Files -/

/-- A file with shaped records gives a source, or fails with an error about itself. -/
theorem failsOnly_ofFile {view : View} {path : Path} (h : IsShapedFile view path) :
    FailsOnly (ofFile view path) (LoadError.IsAbout path.text) := by
  rw [ofFile]
  refine FailsOnly.bind (failsOnly_mapError fun _ => rfl) fun content hcontent => ?_
  obtain ⟨hbroken, hdocument⟩ := h content (mapError_eq_ok_iff.mp hcontent)
  refine FailsOnly.bind ?_ fun document hd => ?_
  · refine hbroken.mapError ?_
    rintro _ rfl
    rfl
  · exact failsOnly_ofDatum path (hdocument document (mapError_eq_ok_iff.mp hd))

/-! ## A record without fields -/

theorem field_of_not_hasFields {d : Datum} (h : ¬ d.HasFields) (key : String) :
    d.field key = .error .noField := by
  rw [Datum.field]
  split
  · next entries hentries => exact absurd ⟨entries, hentries⟩ h
  · rfl

/-- Where there are no fields there are no records. -/
theorem isShaped_of_not_hasFields {d : Datum} (h : ¬ d.HasFields) : IsShaped d := by
  refine ⟨fun v rs hv => ?_, fun v rs hv => ?_, fun v hv => ?_⟩
  all_goals
    rw [field_of_not_hasFields h] at hv
    cases hv

/-- When the first structural record has no fields, there is neither a source nor an error about the
file. -/
theorem ofDatum_of_not_hasFields (path : Path) {entries : List (Datum × Datum)} {v r : Datum}
    {rs : List Datum} (hentries : Datum.find? "structural" entries = some v)
    (helements : v.optionalElements = .ok (r :: rs)) (h : ¬ r.HasFields) :
    ofDatum path (.map entries) = .error (.other .noField) := by
  have hgiven : (Datum.map entries).isGiven = true := by
    cases entries with
    | nil => cases hentries
    | cons e entries => rfl
  have hrecord : StructuralRecord.ofDatum r = .error .noField := by
    rw [StructuralRecord.ofDatum, field_of_not_hasFields h]
    rfl
  have hrecords : recordsOfDatum (.map entries) = .error .noField := by
    have hfield : (Datum.map entries).field "structural" = .ok v := by
      rw [Datum.field]
      show Except.ok ((Datum.find? "structural" entries).getD .null) = _
      rw [hentries, Option.getD_some]
    rw [recordsOfDatum, recordsUnder, hfield]
    show (v.optionalElements >>= fun es => es.mapM StructuralRecord.ofDatum) >>= _ = _
    rw [helements]
    show (List.mapM StructuralRecord.ofDatum (r :: rs)) >>= _ = _
    rw [List.mapM_cons, hrecord]
    rfl
  rw [ofDatum, if_pos hgiven]
  show ((recordsOfDatum (.map entries)).mapError _ >>= _) = _
  rw [hrecords]
  rfl

end Source

end ApiDocs
