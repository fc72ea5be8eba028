import Mathlib.Data.List.Nodup
import ApiDocs.Datum.Basic

/-!
# Paths of keys

Maps lie within maps, and a path of text keys leads from a datum to what stands at its end.

* `Datum.at?`: what stands at a path;
* `Datum.find?_put`: what a map has under its keys after an entry is written;
* `Datum.IsJson`: the data of which texts, numbers, lists and maps are made without anything else.
-/

namespace ApiDocs.Datum

/-! ## Text keys -/

theorem same_text (a b : String) : (text a).same (text b) = (a == b) := by
  rw [same]

/-- Nothing but a text is the same as it. -/
theorem same_text_iff {d : Datum} {s : String} : d.same (text s) = true ↔ d = text s := by
  cases d with
  | text t => rw [same_text, beq_iff_eq, text.injEq]
  | bool _ => simp [same, sameNumber, fraction?]
  | int _ => simp [same, sameNumber, fraction?]
  | float x =>
    cases hx : x.fraction? <;> simp [same, sameNumber, fraction?, hx]
  | _ => simp [same, sameNumber, fraction?]

theorem find?_cons (key : String) (e : Datum × Datum) (entries : List (Datum × Datum)) :
    find? key (e :: entries) = if e.1.same (text key) then some e.2 else find? key entries := by
  rw [find?, find?, lookup, lookup, List.find?_cons]
  cases e.1.same (text key) <;> rfl

theorem find?_cons_text (key first : String) (value : Datum) (entries : List (Datum × Datum)) :
    find? key ((text first, value) :: entries) =
      if first = key then some value else find? key entries := by
  rw [find?_cons, same_text]
  simp only [beq_iff_eq]

theorem mem_of_find? {key : String} {entries : List (Datum × Datum)} {v : Datum}
    (h : find? key entries = some v) : (text key, v) ∈ entries := by
  induction entries with
  | nil => cases h
  | cons e entries ih =>
    rw [find?_cons] at h
    split at h
    · next hsame =>
      cases h
      rw [← same_text_iff.mp hsame]
      exact List.mem_cons_self
    · exact List.mem_cons_of_mem e (ih h)

/-- What a map has under its keys after an entry is written. -/
theorem find?_put (key : String) (value : Datum) (entries : List (Datum × Datum)) (q : String) :
    find? q (put (text key) value entries) = if key = q then some value else find? q entries := by
  induction entries with
  | nil => rw [put, find?_cons_text]
  | cons e entries ih =>
    obtain ⟨k, v⟩ := e
    rw [put]
    split
    · next hsame =>
      rw [same_text_iff.mp hsame, find?_cons_text, find?_cons_text]
      by_cases hq : key = q <;> simp [hq]
    · next hne =>
      rw [find?_cons, find?_cons, ih]
      by_cases hq : key = q
      · subst hq
        rw [if_neg hne, if_pos rfl, if_pos rfl]
      · rw [if_neg hq, if_neg hq]

/-- The keys of some entries are texts, no two of them the same. -/
def HasTextKeys (entries : List (Datum × Datum)) : Prop :=
  ∃ names : List String, names.Nodup ∧ entries.map (·.1) = names.map text

theorem HasTextKeys.of_cons {e : Datum × Datum} {entries : List (Datum × Datum)}
    (h : HasTextKeys (e :: entries)) :
    ∃ key, e.1 = text key ∧ find? key entries = none ∧ HasTextKeys entries := by
  obtain ⟨names, hnodup, hkeys⟩ := h
  cases names with
  | nil => cases hkeys
  | cons key names =>
    obtain ⟨hkey, hkeys⟩ := List.cons.inj hkeys
    obtain ⟨hnew, hnodup⟩ := List.nodup_cons.mp hnodup
    refine ⟨key, hkey, ?_, names, hnodup, hkeys⟩
    cases hfind : find? key entries with
    | none => rfl
    | some v =>
      have hmem : text key ∈ names.map text := hkeys ▸ List.mem_map_of_mem (mem_of_find? hfind)
      obtain ⟨key', hmem, heq⟩ := List.mem_map.mp hmem
      cases heq
      exact absurd hmem hnew

/-! ## Data without anything but JSON -/

/-- Null, truth values, numbers and texts, lists of such data, and maps from texts to such data. -/
inductive IsJson : Datum → Prop
  | null : IsJson null
  | bool (b : Bool) : IsJson (bool b)
  | int (i : Int) : IsJson (int i)
  | float (x : Decimal.Binary64) : IsJson (float x)
  | text (s : String) : IsJson (text s)
  | list {items : List Datum} (hitems : ∀ x ∈ items, IsJson x) : IsJson (list items)
  | map {entries : List (Datum × Datum)} (hkeys : HasTextKeys entries)
    (hvalues : ∀ e ∈ entries, IsJson e.2) : IsJson (map entries)

/-! ## Paths -/

/-- What stands in a datum at a path of keys. Only maps are gone through. -/
def at? : Datum → List String → Option Datum
  | d, [] => some d
  | map entries, key :: path =>
    match find? key entries with
    | some d => d.at? path
    | none => none
  | _, _ :: _ => none

@[simp] theorem at?_nil (d : Datum) : d.at? [] = some d := by
  cases d <;> rfl

theorem at?_cons_of_find? {entries : List (Datum × Datum)} {key : String} {d : Datum}
    (h : find? key entries = some d) (path : List String) :
    (map entries).at? (key :: path) = d.at? path := by
  rw [at?, h]

theorem at?_cons_of_find?_eq_none {entries : List (Datum × Datum)} {key : String}
    (h : find? key entries = none) (path : List String) :
    (map entries).at? (key :: path) = none := by
  rw [at?, h]

/-- A path that leads on leads through a map. -/
theorem exists_of_at?_cons {d v : Datum} {key : String} {path : List String}
    (h : d.at? (key :: path) = some v) :
    ∃ entries d', d = map entries ∧ find? key entries = some d' ∧ d'.at? path = some v := by
  cases d with
  | map entries =>
    cases hfind : find? key entries with
    | none =>
      rw [at?_cons_of_find?_eq_none hfind] at h
      cases h
    | some d' => exact ⟨entries, d', rfl, hfind, at?_cons_of_find? hfind path ▸ h⟩
  | _ => cases h

end ApiDocs.Datum
