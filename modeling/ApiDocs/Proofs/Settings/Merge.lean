import Mathlib
import ApiDocs.Proofs.Datum.KeyPath
import ApiDocs.Proofs.Logged
import ApiDocs.Settings.Merge

/-!
# Merging key by key

A value that goes over another one is merged with it if both are maps, put together with it if both are
lists of prefixes, and takes its place otherwise.  A merged map has what comes of this under each key of
the update, and what it had under all others.

* `Datum.exists_collect`: the texts of two lists in strictly ascending order;
* `Datum.mergeValue_cases`: what one step does;
* `Datum.find?_mergeEntries`: what a merged map has under each of its keys;
* `Datum.exists_mergeEntries_of_values`: merging succeeds when it succeeds key by key.
-/

namespace ApiDocs.Datum

/-! ## Collecting texts -/

theorem exists_map_text {items : List Datum} (h : ∀ x ∈ items, ∃ s, x = text s) :
    ∃ names : List String, items = names.map text := by
  induction items with
  | nil => exact ⟨[], rfl⟩
  | cons x items ih =>
    obtain ⟨⟨s, rfl⟩, hitems⟩ := List.forall_mem_cons.mp h
    obtain ⟨names, rfl⟩ := ih hitems
    exact ⟨s :: names, rfl⟩

/-- Of texts, the first of each is left. -/
theorem exists_distinct_map_text (names : List String) : ∃ firsts : List String,
    distinct (names.map text) = firsts.map text ∧ firsts.Nodup ∧ ∀ s, s ∈ firsts ↔ s ∈ names := by
  induction names with
  | nil => exact ⟨[], rfl, List.nodup_nil, fun _ => .rfl⟩
  | cons s names ih =>
    obtain ⟨firsts, hdistinct, hnodup, hmem⟩ := ih
    refine ⟨s :: firsts.filter (· != s), ?_, ?_, ?_⟩
    · rw [List.map_cons, distinct, hdistinct, List.filter_map, List.map_cons]
      exact congrArg (text s :: ·.map text) (List.filter_congr fun t _ => congrArg (!·) (same_text t s))
    · refine List.nodup_cons.mpr ⟨fun hs => ?_, hnodup.filter _⟩
      simp at hs
    · intro t
      rw [List.mem_cons, List.mem_cons, List.mem_filter, hmem, bne_iff_ne]
      by_cases ht : t = s <;> simp [ht]

/-- Texts no two of which are the same ascend strictly when they are in order. -/
theorem pairwise_lt_mergeSort {names : List String} (h : names.Nodup) :
    (names.mergeSort fun s t => !decide (t < s)).Pairwise (· < ·) := by
  have hle : ∀ s t : String, (!decide (t < s)) = true ↔ s ≤ t := by
    intro s t
    rw [Bool.not_eq_true', decide_eq_false_iff_not, not_lt]
  have hascends : (names.mergeSort fun s t => !decide (t < s)).Pairwise
      fun s t => (!decide (t < s)) = true := by
    refine List.pairwise_mergeSort (fun a b c hab hbc => ?_) (fun a b => ?_) names
    · exact (hle a c).mpr (le_trans ((hle a b).mp hab) ((hle b c).mp hbc))
    · exact Bool.or_eq_true_iff.mpr ((le_total a b).imp (hle a b).mpr (hle b a).mpr)
  have hnodup := (List.mergeSort_perm names fun s t => !decide (t < s)).symm.nodup h
  exact (hascends.and hnodup).imp fun {a b} hab => lt_of_le_of_ne ((hle a b).mp hab.1) hab.2

/-- A list holds the texts of two others in strictly ascending order and nothing else. -/
def IsAscendingUnion (items known added : List Datum) : Prop :=
  (∃ names : List String, items = names.map text ∧ names.Pairwise (· < ·)) ∧
    ∀ x, x ∈ items ↔ x ∈ known ∨ x ∈ added

/-- Texts of two lists can be collected. -/
theorem exists_collect {known added : List Datum} (hknown : ∀ x ∈ known, ∃ s, x = text s)
    (hadded : ∀ x ∈ added, ∃ s, x = text s) :
    ∃ items, collect known added = .ok items ∧ IsAscendingUnion items known added := by
  have hitems : ∀ x ∈ known ++ added, ∃ s, x = text s := by
    intro x hx
    exact (List.mem_append.mp hx).elim (hknown x) (hadded x)
  obtain ⟨all, hall⟩ := exists_map_text hitems
  obtain ⟨firsts, hfirsts, hnodup, hmem⟩ := exists_distinct_map_text all
  have hscalar : (all.map text).all isScalar = true := by
    rw [List.all_map, List.all_eq_true]
    exact fun _ _ => rfl
  have hordered : isOrdered (firsts.map text) = true := by
    have htexts : (firsts.map text).all isText = true := by
      rw [List.all_map, List.all_eq_true]
      exact fun _ _ => rfl
    rw [isOrdered, htexts, Bool.or_true, Bool.true_or]
  -- Texts are in order as data as they are as strings.
  have hsort : (firsts.map text).mergeSort (fun x y => !y.isLess x) =
      (firsts.mergeSort fun s t => !decide (t < s)).map text :=
    (List.map_mergeSort (f := text) (r := fun s t => !decide (t < s)) fun s _ t _ => rfl).symm
  refine ⟨_, ?_, ⟨_, rfl, pairwise_lt_mergeSort hnodup⟩, ?_⟩
  · rw [collect, hall, hscalar, hfirsts, hordered, ← hsort]
    rfl
  · intro x
    rw [← List.mem_append, hall, List.mem_map, List.mem_map]
    exact exists_congr fun s => and_congr_left fun _ => by rw [List.mem_mergeSort, hmem]

/-! ## One step -/

/-- What comes to stand under a key when a value goes over what was there. -/
inductive GoesOver (key : String) : Option Datum → Datum → Datum → Prop
  | merged {base update entries : List (Datum × Datum)}
    (h : mergeEntries base update = .ok entries) :
    GoesOver key (some (map base)) (map update) (map entries)
  | collected {known added items : List Datum} (hkey : key = prefixesKey)
    (h : collect known added = .ok items) :
    GoesOver key (some (list known)) (list added) (list items)
  | taken {old : Option Datum} {new : Datum}
    (hmaps : ¬ ((∃ base, old = some (map base)) ∧ ∃ update, new = map update))
    (hlists : ¬ (key = prefixesKey ∧ (∃ known, old = some (list known)) ∧ ∃ added, new = list added)) :
    GoesOver key old new new

theorem mergeValue_cases {key : String} {old : Option Datum} {new result : Datum}
    (hnew : new.IsJson) (h : mergeValue (text key) old new = .ok result) :
    GoesOver key old new result := by
  cases hnew with
  | map =>
    unfold mergeValue at h
    split at h
    · next base =>
      cases hentries : mergeEntries base _ with
      | error f => rw [hentries] at h; cases h
      | ok entries =>
        rw [hentries] at h
        cases h
        exact .merged hentries
    · next hold =>
      cases h
      exact .taken (fun hmaps => hmaps.1.elim hold) nofun
  | list =>
    unfold mergeValue at h
    split at h
    · next known =>
      rw [same_text] at h
      split at h
      · next hkey =>
        cases hitems : collect known _ with
        | error f => rw [hitems] at h; cases h
        | ok items =>
          rw [hitems] at h
          cases h
          exact .collected (beq_iff_eq.mp hkey) hitems
      · next hkey =>
        cases h
        exact .taken nofun fun hlists => hkey (beq_iff_eq.mpr hlists.1)
    · next hold =>
      cases h
      exact .taken nofun fun hlists => hlists.2.1.elim hold
  | _ =>
    cases h
    exact .taken nofun nofun

/-- What a merged map has under each of its keys. -/
theorem find?_mergeEntries {base update entries : List (Datum × Datum)} (hkeys : HasTextKeys update)
    (h : mergeEntries base update = .ok entries) (key : String) :
    (find? key update = none ∧ find? key entries = find? key base) ∨
    ∃ new result, find? key update = some new ∧ find? key entries = some result ∧
      mergeValue (text key) (find? key base) new = .ok result := by
  induction update generalizing base with
  | nil =>
    rw [mergeEntries] at h
    cases h
    exact .inl ⟨rfl, rfl⟩
  | cons e update ih =>
    obtain ⟨_, new⟩ := e
    obtain ⟨first, rfl, hfirst, hkeys⟩ := hkeys.of_cons
    rw [mergeEntries] at h
    obtain ⟨result, hresult, h⟩ := bind_eq_ok_iff.mp h
    have hput := find?_put first result base key
    rw [find?_cons_text]
    by_cases heq : first = key
    · -- The keys behind it are others, so what is written now stays.
      subst heq
      rw [if_pos rfl] at hput ⊢
      refine .inr ⟨new, result, rfl, ?_, hresult⟩
      rcases ih hkeys h with ⟨-, hsame⟩ | ⟨_, _, hagain, -⟩
      · rw [hsame, hput]
      · rw [hfirst] at hagain
        cases hagain
    · rw [if_neg heq] at hput ⊢
      rw [← hput]
      exact ih hkeys h

/-- A map can go over another one when each of its values can. -/
theorem exists_mergeEntries_of_values {base update : List (Datum × Datum)} (hkeys : HasTextKeys update)
    (hvalues : ∀ key new, find? key update = some new →
      ∃ result, mergeValue (text key) (find? key base) new = .ok result) :
    ∃ result, mergeEntries base update = .ok result := by
  induction update generalizing base with
  | nil => exact ⟨base, by rw [mergeEntries]⟩
  | cons e update ih =>
    obtain ⟨_, new⟩ := e
    obtain ⟨first, rfl, hfirst, hkeys⟩ := hkeys.of_cons
    obtain ⟨value, hvalue⟩ :=
      hvalues first new ((find?_cons_text first first new update).trans (if_pos rfl))
    have hrest : ∀ key new', find? key update = some new' →
        ∃ result, mergeValue (text key) (find? key (put (text first) value base)) new' =
          .ok result := by
      intro key new' hnew
      have hne : first ≠ key := by
        rintro rfl
        rw [hfirst] at hnew
        cases hnew
      rw [find?_put, if_neg hne]
      exact hvalues key new' ((find?_cons_text key first new update).trans ((if_neg hne).trans hnew))
    obtain ⟨result, hresult⟩ := ih hkeys hrest
    refine ⟨result, ?_⟩
    rw [mergeEntries]
    exact bind_eq_ok_iff.mpr ⟨value, hvalue, hresult⟩

end ApiDocs.Datum
