import ApiDocs.Proofs.Catalog.Placed
import ApiDocs.Proofs.Source.Halves
import ApiDocs.Source.Load

/-!
# What a loaded catalog comes from

A source is loaded in two halves.  What is not asked for is hidden in the structural half, and then the
halves are merged place by place.

* `Source.load_halves`: the halves of a source and what stands at every place of the whole.
-/

namespace ApiDocs.Source

/-- What a loaded catalog comes from: the entities of the records of either half, each connected, and
at every place what comes of the two once the structural half shows only what is asked for. -/
theorem load_halves {s : Source} {options : LoadOptions} {c : Catalog}
    (h : (s.load options).outcome = .ok c) : ∃ structural documentation declared described,
      (options.kept s.structural).map (·.toEntity) = declared.map .ok ∧
      Catalog.Connects declared structural ∧
      (Catalog.ofDocumentation s.name s.documentation).outcome = .ok documentation ∧
      s.documentation.map (·.toEntity.outcome) = described.map .ok ∧
      Catalog.Connects described documentation ∧
      ∀ place, Entity.Joined
        ((structural.filterVisibility options.visibilities).entityAt place)
        (documentation.entityAt place) (c.entityAt place) := by
  rw [load, Logged.bind_eq_ok_iff] at h
  obtain ⟨structural, hs, h⟩ := h
  rw [Logged.bind_eq_ok_iff] at h
  obtain ⟨documentation, hdoc, h⟩ := h
  obtain ⟨c₀, declared, rfl, hdeclared, hs⟩ := Catalog.ofStructural_outcome hs
  obtain ⟨described, hdescribed, hd⟩ := Catalog.ofDocumentation_outcome hdoc
  have hkeyed := (hs.isPlaced.filterVisibility options.visibilities).isKeyed
  have hjoined := Catalog.entityAt_merge hkeyed hd.isPlaced.isKeyed (mapError_eq_ok_iff.mp h)
  exact ⟨c₀, documentation, declared, described, hdeclared, hs, hdoc, hdescribed, hd, hjoined⟩

end ApiDocs.Source
