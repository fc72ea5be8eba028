import ApiDocs.Proofs.Catalog.Connect
import ApiDocs.Proofs.Catalog.MergeAt
import ApiDocs.Proofs.Catalog.Visibility

/-!
# What keeps everything in its place

Adding types, uniting, hiding and merging move nothing: what stands at a place afterwards stood at that
place in one of the catalogs before, or declares what stood there.

* `Catalog.IsPlaced.addTypes`, `Catalog.IsPlaced.union`, `Catalog.IsPlaced.filterVisibility`,
  `Catalog.IsPlaced.merge`: everything stays in its place.
-/

namespace ApiDocs.Catalog

theorem isPlaced_ofType {t : TypeDoc} (h : t.members = {}) : (ofType t).IsPlaced := by
  have htypes : ofTypes [t] = .ok (ofType t) := rfl
  refine (connects_of_ofTypes (fun t' ht' => ?_) htypes).isPlaced
  rw [List.mem_singleton.mp ht', h]

/-- A type without members, or one of a catalog in which everything is in its place, stands under its
key in such a catalog. -/
theorem exists_isPlaced_get? {t : TypeDoc}
    (h : t.members = {} ∨ ∃ d : Catalog, d.IsPlaced ∧ t ∈ d.types) :
    ∃ d : Catalog, d.IsPlaced ∧ d.table.get? t.key = some t := by
  rcases h with hmembers | ⟨d, hd, hmem⟩
  · exact ⟨ofType t, isPlaced_ofType hmembers, by rw [ofType, KeyTable.get?_insert, if_pos rfl]⟩
  · obtain ⟨key, hget⟩ := KeyTable.mem_values_iff.mp hmem
    exact ⟨d, hd, by rw [hd.isKeyed key t hget, hget]⟩

namespace IsPlaced

variable {c c' d : Catalog}

theorem addTypes {types : List TypeDoc} (hc : c.IsPlaced)
    (htypes : ∀ t ∈ types, t.members = {} ∨ ∃ d : Catalog, d.IsPlaced ∧ t ∈ d.types)
    (h : c.addTypes types = .ok c') : c'.IsPlaced := by
  obtain ⟨hnodup, -, hget⟩ := addTypes_eq_ok_iff.mp h
  intro place e hat
  -- The type at the place, or around it, is one that is added or one that was there.
  have hsource : ∃ d : Catalog, d.IsPlaced ∧
      c'.table.get? place.typeKey = d.table.get? place.typeKey := by
    rw [hget]
    cases hfirst : firstOf place.typeKey types with
    | none => exact ⟨c, hc, Option.none_or⟩
    | some t =>
      obtain ⟨hmem, hkey⟩ := (firstOf_eq_some_iff hnodup).mp hfirst
      obtain ⟨d, hd, hheld⟩ := exists_isPlaced_get? (htypes t hmem)
      exact ⟨d, hd, by rw [Option.some_or, ← hkey, hheld]⟩
  obtain ⟨d, hd, hsame⟩ := hsource
  rw [entityAt_congr hsame] at hat
  exact hd place e hat

theorem union (hc : c.IsPlaced) (hd : d.IsPlaced) (h : c.union d = .ok c') : c'.IsPlaced :=
  hc.addTypes (fun _ ht => .inr ⟨d, hd, ht⟩) h

theorem filterVisibility (hc : c.IsPlaced) (v : NameFlags) : (c.filterVisibility v).IsPlaced := by
  intro place e hat
  exact hc place e (entityAt_of_filterVisibility hat).1

theorem merge (hc : c.IsPlaced) (hd : d.IsPlaced) (h : (c.merge d).outcome = .ok c') :
    c'.IsPlaced := by
  intro place e hat
  have hjoined := entityAt_merge hc.isKeyed hd.isKeyed h place
  rw [hat] at hjoined
  rcases hjoined.origin with ⟨s, hs, hkeeps⟩ | hdocumented
  · exact hkeeps.place?_eq.trans (hc place s hs)
  · exact hd place e hdocumented

end IsPlaced

end ApiDocs.Catalog
