import ApiDocs.KeyTable

/-!
# What tables hold

A table is the function from keys to values that it holds, so what is said about tables is proved key
by key.

* `KeyTable.get?_eq_some_iff`: the entries are the values that are held;
* `KeyTable.get?_filter`, `KeyTable.get?_map`: what is held after values are dropped or changed;
* `KeyTable.outerJoin_assoc`: joins associate when what makes one value of two does;
* `KeyTable.outerJoin_empty`, `KeyTable.empty_outerJoin`: a table without entries adds nothing;
* `KeyTable.outerJoin_self`: a table adds nothing to itself when a value adds nothing to itself;
* `KeyTable.countP_contains_comm`, `KeyTable.size_outerJoin`: how many keys two tables share, and how
  many they have together.
-/

namespace ApiDocs

namespace Entries

variable {α : Type}

theorem find?_eq_some_iff {es : List (String × α)} (h : Sorted es) {key : String} {v : α} :
    find? key es = some v ↔ (key, v) ∈ es := by
  induction es with
  | nil => exact ⟨nofun, nofun⟩
  | cons e rest ih =>
    obtain ⟨k, w⟩ := e
    obtain ⟨head, tail⟩ := List.pairwise_cons.1 h
    rw [find?, List.mem_cons]
    by_cases hk : k = key
    · subst hk
      rw [if_pos rfl]
      constructor
      · intro heq
        cases heq
        exact .inl rfl
      · rintro (heq | hmem)
        · cases heq
          rfl
        · exact absurd (head _ hmem) (String.lt_irrefl k)
    · rw [if_neg hk, ih tail]
      constructor
      · exact .inr
      · rintro (heq | hmem)
        · cases heq
          exact absurd rfl hk
        · exact hmem

end Entries

namespace KeyTable

variable {α : Type}

/-- The entries are the values that are held. -/
theorem get?_eq_some_iff {t : KeyTable α} {key : String} {v : α} :
    t.get? key = some v ↔ (key, v) ∈ t.entries :=
  Entries.find?_eq_some_iff t.sorted

theorem mem_values_iff {t : KeyTable α} {v : α} : v ∈ t.values ↔ ∃ key, t.get? key = some v := by
  rw [values, List.mem_map]
  constructor
  · rintro ⟨⟨key, w⟩, hmem, rfl⟩
    exact ⟨key, get?_eq_some_iff.mpr hmem⟩
  · rintro ⟨key, hget⟩
    exact ⟨(key, v), get?_eq_some_iff.mp hget, rfl⟩

theorem mem_keys_iff {t : KeyTable α} {key : String} :
    key ∈ t.keys ↔ ∃ v, t.get? key = some v := by
  rw [keys, List.mem_map]
  constructor
  · rintro ⟨⟨key, v⟩, hmem, rfl⟩
    exact ⟨v, get?_eq_some_iff.mpr hmem⟩
  · rintro ⟨v, hget⟩
    exact ⟨(key, v), get?_eq_some_iff.mp hget, rfl⟩

theorem nodup_keys (t : KeyTable α) : t.keys.Nodup := by
  refine List.pairwise_map.mpr (t.sorted.imp fun {a b} hlt heq => ?_)
  rw [heq] at hlt
  exact String.lt_irrefl _ hlt

theorem get?_filter (p : α → Bool) (t : KeyTable α) (key : String) :
    (t.filter p).get? key = (t.get? key).filter p := by
  refine Option.ext fun v => ?_
  rw [Option.filter_eq_some_iff, get?_eq_some_iff, get?_eq_some_iff]
  exact List.mem_filter

theorem get?_map {β : Type} (f : α → β) (t : KeyTable α) (key : String) :
    (t.map f).get? key = (t.get? key).map f := by
  refine Option.ext fun v => ?_
  simp only [Option.map_eq_some_iff, get?_eq_some_iff]
  constructor
  · intro hmem
    obtain ⟨⟨k, w⟩, hentry, heq⟩ := List.mem_map.mp hmem
    cases heq
    exact ⟨w, hentry, rfl⟩
  · rintro ⟨w, hentry, rfl⟩
    exact List.mem_map.mpr ⟨(key, w), hentry, rfl⟩

theorem filter_eq_self (t : KeyTable α) {p : α → Bool} (hp : ∀ v, p v = true) : t.filter p = t :=
  ext (List.filter_eq_self.mpr fun e _ => hp e.2)

theorem map_eq_self (t : KeyTable α) {f : α → α} (hf : ∀ v, f v = v) : t.map f = t := by
  refine ext ((List.map_congr_left fun e _ => ?_).trans (List.map_id t.entries))
  rw [hf]
  rfl

theorem filter_filter (p q : α → Bool) (t : KeyTable α) :
    (t.filter p).filter q = t.filter fun v => p v && q v := by
  refine ext_get? fun key => ?_
  rw [get?_filter, get?_filter, get?_filter, Option.filter_filter]

theorem values_filter (p : α → Bool) (t : KeyTable α) : (t.filter p).values = t.values.filter p :=
  List.filter_map.symm

theorem values_map {β : Type} (f : α → β) (t : KeyTable α) :
    (t.map f).values = t.values.map f := by
  rw [values, values, map, List.map_map, List.map_map]
  rfl

/-! ## Joins -/

theorem mem_keys_outerJoin {both : α → α → α} {t u : KeyTable α} {key : String} :
    key ∈ (outerJoin both t u).keys ↔ key ∈ t.keys ∨ key ∈ u.keys := by
  rw [mem_keys_iff, mem_keys_iff, mem_keys_iff, get?_outerJoin]
  cases t.get? key <;> cases u.get? key <;> simp

/-- Joins associate when what makes one value of two does. -/
theorem outerJoin_assoc {both : α → α → α}
    (hboth : ∀ a b c, both (both a b) c = both a (both b c)) (t u v : KeyTable α) :
    outerJoin both (outerJoin both t u) v = outerJoin both t (outerJoin both u v) := by
  refine ext_get? fun key => ?_
  rw [get?_outerJoin, get?_outerJoin, get?_outerJoin, get?_outerJoin]
  cases t.get? key <;> cases u.get? key <;> cases v.get? key <;> simp only [hboth]

theorem outerJoin_empty (both : α → α → α) (t : KeyTable α) : outerJoin both t empty = t := rfl

theorem empty_outerJoin (both : α → α → α) (t : KeyTable α) : outerJoin both empty t = t := by
  refine ext_get? fun key => ?_
  rw [get?_outerJoin, get?_empty]

theorem outerJoin_self {both : α → α → α} (hboth : ∀ a, both a a = a) (t : KeyTable α) :
    outerJoin both t t = t := by
  refine ext_get? fun key => ?_
  rw [get?_outerJoin]
  cases t.get? key with
  | none => rfl
  | some v => exact congrArg some (hboth v)

/-! ## Sizes -/

theorem length_keys (t : KeyTable α) : t.keys.length = t.size := List.length_map _

theorem contains_iff_mem_keys {t : KeyTable α} {key : String} :
    t.contains key = true ↔ key ∈ t.keys :=
  Option.isSome_iff_exists.trans mem_keys_iff.symm

/-- The keys that two tables share are as many in the one as in the other. -/
theorem countP_contains_comm {β : Type} (t : KeyTable α) (u : KeyTable β) :
    t.keys.countP u.contains = u.keys.countP t.contains := by
  have hperm : (t.keys.filter u.contains).Perm (u.keys.filter t.contains) := by
    refine (List.perm_ext_iff_of_nodup (t.nodup_keys.filter _) (u.nodup_keys.filter _)).mpr ?_
    intro key
    rw [List.mem_filter, List.mem_filter, contains_iff_mem_keys, contains_iff_mem_keys, and_comm]
  rw [List.countP_eq_length_filter, List.countP_eq_length_filter, hperm.length_eq]

/-- A join has the keys of one table and those that only the other one has. -/
theorem size_outerJoin (both : α → α → α) (t u : KeyTable α) : (outerJoin both t u).size =
    t.size + (u.entries.filter fun e => !t.contains e.1).length := by
  have hperm : (outerJoin both t u).keys.Perm
      (t.keys ++ u.keys.filter fun key => !t.contains key) := by
    have happart : (t.keys ++ u.keys.filter fun key => !t.contains key).Nodup := by
      refine List.nodup_append.mpr ⟨t.nodup_keys, u.nodup_keys.filter _, ?_⟩
      rintro key ht _ hu rfl
      simp [contains_iff_mem_keys.mpr ht] at hu
    refine (List.perm_ext_iff_of_nodup (nodup_keys _) happart).mpr fun key => ?_
    rw [mem_keys_outerJoin, List.mem_append, List.mem_filter, Bool.not_eq_true', ← Bool.not_eq_true,
      contains_iff_mem_keys]
    by_cases ht : key ∈ t.keys <;> simp [ht]
  have hnew : (u.keys.filter fun key => !t.contains key).length =
      (u.entries.filter fun e => !t.contains e.1).length := by
    rw [keys, List.filter_map, List.length_map]
    rfl
  rw [← length_keys, hperm.length_eq, List.length_append, length_keys, hnew]

end KeyTable

end ApiDocs
