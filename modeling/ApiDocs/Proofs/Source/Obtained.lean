import ApiDocs.Proofs.Catalog.Placed
import ApiDocs.Proofs.Source.Load

/-!
# What every catalog has in common

All catalogs are made of the halves of sources, by adding types, by uniting and merging catalogs and by
hiding what is not asked for.  Whatever has been done, everything in them is in its place.

* `Catalog.Obtained`: the catalogs that come of the halves of sources;
* `Source.obtained_of_load`: a loaded catalog is one of them;
* `Catalog.Obtained.key_eq`: types and members stand under their own keys, and members in the type that
  their path names.
-/

namespace ApiDocs

namespace Catalog

/-- The catalogs that come of the halves of sources.  The types that are added to one of them are those
of others, or have no members yet. -/
inductive Obtained : Catalog → Prop
  | structural {source : String} {options : LoadOptions} {records : List StructuralRecord}
      {c : Catalog} : (ofStructural source options records).outcome = .ok c → Obtained c
  | documentation {source : String} {records : List DocumentationRecord} {c : Catalog} :
      (ofDocumentation source records).outcome = .ok c → Obtained c
  | addTypes {c c' : Catalog} {others : List Catalog} {types : List TypeDoc} :
      Obtained c → (∀ d ∈ others, Obtained d) →
      (∀ t ∈ types, t.members = {} ∨ ∃ d ∈ others, t ∈ d.types) → c.addTypes types = .ok c' →
      Obtained c'
  | union {c d c' : Catalog} : Obtained c → Obtained d → c.union d = .ok c' → Obtained c'
  | filterVisibility {c : Catalog} (v : NameFlags) : Obtained c → Obtained (c.filterVisibility v)
  | merge {c d c' : Catalog} : Obtained c → Obtained d → (c.merge d).outcome = .ok c' → Obtained c'

/-- Everything in a catalog is in its place, from the halves of sources on and through every step. -/
theorem Obtained.isPlaced {c : Catalog} (h : c.Obtained) : c.IsPlaced := by
  induction h with
  | structural h =>
    obtain ⟨c₀, _, rfl, -, hc⟩ := ofStructural_outcome h
    exact hc.isPlaced.filterVisibility _
  | documentation h =>
    obtain ⟨_, -, hc⟩ := ofDocumentation_outcome h
    exact hc.isPlaced
  | addTypes _ _ htypes h ih ihs =>
    refine ih.addTypes (fun t ht => (htypes t ht).imp_right ?_) h
    rintro ⟨d, hd, hmem⟩
    exact ⟨d, ihs d hd, hmem⟩
  | union _ _ h ih ih' => exact ih.union ih' h
  | filterVisibility v _ ih => exact ih.filterVisibility v
  | merge _ _ h ih ih' => exact ih.merge ih' h

/-- Every type stands under its own key.  Every member in the table of a class, which holds members of
that class only, stands under its own key, and its path names the type that it is in. -/
theorem Obtained.key_eq {c : Catalog} (h : c.Obtained) :
    ∀ key t, c.table.get? key = some t → t.key = key ∧
      ∀ (cls : MemberClass) (k : String) (m : Member cls), (t.members.get cls).get? k = some m →
        m.key = k ∧ ∃ parent, m.identifier.parent? = some parent ∧ parent.canonicalKey = key := by
  intro key t ht
  exact ⟨h.isPlaced.isKeyed key t ht, fun _ _ _ hm => h.isPlaced.member_key ht hm⟩

end Catalog

namespace Source

/-- A loaded catalog comes of the halves of its source. -/
theorem obtained_of_load {s : Source} {options : LoadOptions} {c : Catalog}
    (h : (s.load options).outcome = .ok c) : c.Obtained := by
  rw [load, Logged.bind_eq_ok_iff] at h
  obtain ⟨structural, hs, h⟩ := h
  rw [Logged.bind_eq_ok_iff] at h
  obtain ⟨documentation, hd, h⟩ := h
  exact .merge (.structural hs) (.documentation hd) (mapError_eq_ok_iff.mp h)

/-- A catalog that is loaded, of which only what is public is shown then. -/
theorem key_eq_of_mixed : ∃ c, (mixed.load {}).outcome = .ok c ∧
    (c.filterVisibility .publicBit).Obtained ∧
    ∀ key t, (c.filterVisibility .publicBit).table.get? key = some t → t.key = key ∧
      ∀ (cls : MemberClass) (k : String) (m : Member cls), (t.members.get cls).get? k = some m →
        m.key = k ∧ ∃ parent, m.identifier.parent? = some parent ∧ parent.canonicalKey = key := by
  obtain ⟨c, h⟩ : ∃ c, (mixed.load {}).outcome = .ok c := exists_eq_ok_of_isOk (by cbv)
  have hobtained := (obtained_of_load h).filterVisibility .publicBit
  exact ⟨c, h, hobtained, Catalog.Obtained.key_eq hobtained⟩

end Source

end ApiDocs
