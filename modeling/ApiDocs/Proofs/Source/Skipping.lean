import ApiDocs.Proofs.Source.Hidden

/-!
# Nothing of use is skipped

Whether a compiler made a record is told from the bare text, before anything is read of it, so the test
looks into arguments and generic arguments as well.  It can fire all the same only where the text is no
identifier, since no part of an identifier has the mark in it.  So a source that loads with every one of
its records loads alike when names that a compiler made are skipped.

* `StructuralRecord.skips_of_toEntity`: what makes an entity is not passed over;
* `Entities.ofStructural_of_skips`: a test that spares what makes an entity changes nothing;
* `Catalog.ofStructural_skipping`: the catalog of a source with and without skipping.
-/

namespace ApiDocs

/-- What makes an entity is not passed over. -/
theorem StructuralRecord.skips_of_toEntity {r : StructuralRecord} {e : Entity}
    (h : r.toEntity = .ok e) (v : NameFlags) :
    LoadOptions.skips { visibilities := v } r = .ok false := by
  obtain ⟨kind, -, h⟩ := bind_eq_ok_iff.mp h
  obtain ⟨x, hx, -⟩ := bind_eq_ok_iff.mp h
  exact skips_of_toIdentifier hx v

/-- When every record makes an entity, a test that spares what makes one passes over nothing, and the
entities are the same. -/
theorem Entities.ofStructural_of_skips {source : String} {options options' : LoadOptions}
    (hall : options.skipCompilerGenerated = false)
    (hspares : ∀ r e, StructuralRecord.toEntity r = .ok e → options'.skips r = .ok false)
    {records : List StructuralRecord} {es : Entities}
    (h : ofStructural source options records = .ok es) :
    ofStructural source options' records = .ok es ∧ ∀ r ∈ records, options'.skips r = .ok false := by
  induction records generalizing es with
  | nil => exact ⟨h, nofun⟩
  | cons r rest ih =>
    have hkept : options.skips r = .ok false := by rw [LoadOptions.skips, hall]; rfl
    rw [ofStructural, hkept] at h
    obtain ⟨skipped, hskipped, h⟩ := bind_eq_ok_iff.mp h
    cases hskipped
    obtain ⟨e, he, h⟩ := bind_eq_ok_iff.mp h
    obtain ⟨others, hothers, h⟩ := bind_eq_ok_iff.mp h
    obtain ⟨hrest, hspared⟩ := ih hothers
    have hskips := hspares r e (mapError_eq_ok_iff.mp he)
    refine ⟨?_, List.forall_mem_cons.mpr ⟨hskips, hspared⟩⟩
    rw [ofStructural, hskips]
    exact bind_eq_ok_iff.mpr
      ⟨false, rfl, bind_eq_ok_iff.mpr ⟨e, he, bind_eq_ok_iff.mpr ⟨others, hrest, h⟩⟩⟩

namespace Catalog

/-- A source that has a catalog with all of its records has the same one, and logs the same on the way,
when names that a compiler made are skipped: there is none among its records. -/
theorem ofStructural_skipping {source : String} {v : NameFlags} {records : List StructuralRecord}
    {c : Catalog}
    (h : (ofStructural source { visibilities := v, skipCompilerGenerated := false }
      records).outcome = .ok c) :
    (ofStructural source { visibilities := v } records).outcome = .ok c ∧
    (ofStructural source { visibilities := v } records).log =
      (ofStructural source { visibilities := v, skipCompilerGenerated := false } records).log ∧
    ∀ r ∈ records, LoadOptions.skips { visibilities := v } r = .ok false := by
  obtain ⟨es, hes, -⟩ := Logged.bind_eq_ok_iff.mp h
  have hes : Entities.ofStructural source { visibilities := v, skipCompilerGenerated := false }
      records = .ok es := hes
  obtain ⟨hskipping, hspared⟩ :
      Entities.ofStructural source { visibilities := v } records = .ok es ∧
        ∀ r ∈ records, LoadOptions.skips { visibilities := v } r = .ok false :=
    Entities.ofStructural_of_skips rfl (fun _ _ he => StructuralRecord.skips_of_toEntity he v) hes
  -- The options come in by the entities and by what is shown of them in the end.
  have hsame : ofStructural source { visibilities := v } records =
      ofStructural source { visibilities := v, skipCompilerGenerated := false } records := by
    rw [ofStructural, ofStructural, hskipping, hes]
  exact ⟨hsame ▸ h, congrArg Logged.log hsame, hspared⟩

/-- A generic type, and a method whose arguments have generic arguments and arrays. -/
def genericRecords : List StructuralRecord := [
  { kind := "class", identifier := "N.Box`1", genericNames := ["T"] },
  { kind := "method", identifier := "N.Box`1.Fill(System.List\x7b`0[]\x7d,System.Int32@)",
    genericNames := ["T"], flags := .publicBit }]

theorem ofStructural_skipping_generic : ∃ c,
    (ofStructural "lib" { visibilities := .publicBit, skipCompilerGenerated := false }
      genericRecords).outcome = .ok c ∧
    (ofStructural "lib" { visibilities := .publicBit } genericRecords).outcome = .ok c ∧
    (ofStructural "lib" { visibilities := .publicBit } genericRecords).log =
      (ofStructural "lib" { visibilities := .publicBit, skipCompilerGenerated := false }
        genericRecords).log ∧
    ∀ r ∈ genericRecords, LoadOptions.skips { visibilities := .publicBit } r = .ok false := by
  obtain ⟨c, hc⟩ := exists_eq_ok_of_isOk (by cbv :
    (ofStructural "lib" { visibilities := .publicBit, skipCompilerGenerated := false }
      genericRecords).outcome.isOk = true)
  exact ⟨c, hc, ofStructural_skipping hc⟩

end Catalog

end ApiDocs
