import ApiDocs.Storage.Path

/-!
# Paths in order

Paths are sorted by their parts, of which a root is the first.  No part of a path that a text writes has
a slash in it and every root has one, so the parts tell such paths apart, and sorting them leaves no
choice.

* `Path.pairwise_sorted`: sorted paths are in order;
* `Path.sorted_eq_of_perm`: paths that texts write are sorted alike whatever their order.
-/

namespace ApiDocs.Path

/-! ## Parts tell paths apart -/

theorem slash_not_mem_of_mem_pieces {cs piece : List Char} (h : piece ∈ pieces cs) :
    '/' ∉ piece := by
  induction cs generalizing piece with
  | nil =>
    rw [pieces, List.mem_singleton] at h
    subst h
    exact List.not_mem_nil
  | cons c cs ih =>
    rw [pieces] at h
    split at h
    · rcases List.mem_cons.mp h with rfl | h
      · exact List.not_mem_nil
      · exact ih h
    · next hc =>
      have hc : '/' ≠ c := fun heq => hc (beq_iff_eq.mpr heq.symm)
      split at h
      · next first rest hpieces =>
        rcases List.mem_cons.mp h with rfl | h
        · rw [List.mem_cons, not_or]
          exact ⟨hc, ih (hpieces ▸ List.mem_cons_self)⟩
        · exact ih (hpieces ▸ List.mem_cons_of_mem _ h)
      · rw [List.mem_singleton] at h
        subst h
        rw [List.mem_singleton]
        exact hc

theorem slash_not_mem_of_mem_parts {s part : String} (h : part ∈ (ofText s).parts) :
    '/' ∉ part.toList := by
  obtain ⟨piece, hpiece, rfl⟩ := List.mem_map.mp (List.mem_filter.mp h).1
  rw [String.toList_ofList]
  exact slash_not_mem_of_mem_pieces hpiece

theorem root_eq_or_slash_mem (s : String) :
    (ofText s).root = "" ∨ '/' ∈ (ofText s).root.toList := by
  show rootOf s.toList = "" ∨ '/' ∈ (rootOf s.toList).toList
  unfold rootOf
  split
  · exact .inr (by decide)
  · exact .inr (by decide)
  · exact .inr (by decide)
  · exact .inl rfl

theorem sortKey_of_root {p : Path} (h : p.root = "") : p.sortKey = p.parts := by
  rw [sortKey, h]
  rfl

theorem sortKey_of_slash {p : Path} (h : '/' ∈ p.root.toList) : p.sortKey = p.root :: p.parts := by
  rw [sortKey, if_neg]
  intro hempty
  rw [String.isEmpty_iff.mp hempty] at h
  cases h

theorem eq_of_sortKey_eq {s t : String} (h : (ofText s).sortKey = (ofText t).sortKey) :
    ofText s = ofText t := by
  have hapart : ∀ s t : String, (ofText s).root = "" → '/' ∈ (ofText t).root.toList →
      (ofText s).sortKey ≠ (ofText t).sortKey := by
    intro s t hs ht heq
    rw [sortKey_of_root hs, sortKey_of_slash ht] at heq
    exact slash_not_mem_of_mem_parts (heq ▸ List.mem_cons_self) ht
  have hpath : ∀ p q : Path, p.root = q.root → p.parts = q.parts → p = q := by
    rintro ⟨_, _⟩ ⟨_, _⟩ rfl rfl
    rfl
  rcases root_eq_or_slash_mem s with hs | hs <;> rcases root_eq_or_slash_mem t with ht | ht
  · rw [sortKey_of_root hs, sortKey_of_root ht] at h
    exact hpath _ _ (hs.trans ht.symm) h
  · exact absurd h (hapart s t hs ht)
  · exact absurd h.symm (hapart t s ht hs)
  · rw [sortKey_of_slash hs, sortKey_of_slash ht] at h
    obtain ⟨hroot, hparts⟩ := List.cons.inj h
    exact hpath _ _ hroot hparts

/-! ## Parts in order -/

theorem partsPrecede_cons_iff {a b : String} {as bs : List String} :
    partsPrecede (a :: as) (b :: bs) = true ↔ a < b ∨ a = b ∧ partsPrecede as bs = true := by
  rw [partsPrecede, Bool.or_eq_true, decide_eq_true_iff, Bool.and_eq_true, beq_iff_eq]

theorem partsPrecede_trans {as bs cs : List String} (h : partsPrecede as bs = true)
    (h' : partsPrecede bs cs = true) : partsPrecede as cs = true := by
  induction as generalizing bs cs with
  | nil => rfl
  | cons a as ih =>
    cases bs with
    | nil => cases h
    | cons b bs =>
      cases cs with
      | nil => cases h'
      | cons c cs =>
        rw [partsPrecede_cons_iff] at h h' ⊢
        rcases h with hab | ⟨rfl, h⟩ <;> rcases h' with hbc | ⟨rfl, h'⟩
        · exact .inl (String.lt_trans hab hbc)
        · exact .inl hab
        · exact .inl hbc
        · exact .inr ⟨rfl, ih h h'⟩

theorem partsPrecede_total (as bs : List String) :
    partsPrecede as bs = true ∨ partsPrecede bs as = true := by
  induction as generalizing bs with
  | nil => exact .inl rfl
  | cons a as ih =>
    cases bs with
    | nil => exact .inr rfl
    | cons b bs =>
      rw [partsPrecede_cons_iff, partsPrecede_cons_iff]
      by_cases hab : a < b
      · exact .inl (.inl hab)
      by_cases hba : b < a
      · exact .inr (.inl hba)
      have heq : a = b := String.le_antisymm (String.not_lt.mp hba) (String.not_lt.mp hab)
      exact (ih bs).imp (fun h => .inr ⟨heq, h⟩) fun h => .inr ⟨heq.symm, h⟩

theorem eq_of_partsPrecede {as bs : List String} (h : partsPrecede as bs = true)
    (h' : partsPrecede bs as = true) : as = bs := by
  induction as generalizing bs with
  | nil =>
    cases bs with
    | nil => rfl
    | cons b bs => cases h'
  | cons a as ih =>
    cases bs with
    | nil => cases h
    | cons b bs =>
      rw [partsPrecede_cons_iff] at h h'
      rcases h with hab | ⟨rfl, h⟩ <;> rcases h' with hba | ⟨heq, h'⟩
      · exact absurd hba (String.lt_asymm hab)
      · exact absurd (heq ▸ hab) (String.lt_irrefl _)
      · exact absurd hba (String.lt_irrefl a)
      · rw [ih h h']

/-! ## Sorting -/

theorem perm_sorted (paths : List Path) : (sorted paths).Perm paths := List.mergeSort_perm _ _

theorem pairwise_sorted (paths : List Path) :
    (sorted paths).Pairwise fun p q => p.precedes q = true := by
  have htrans : ∀ p q r : Path, p.precedes q = true → q.precedes r = true → p.precedes r = true :=
    fun _ _ _ => partsPrecede_trans
  have htotal : ∀ p q : Path, (p.precedes q || q.precedes p) = true := fun p q =>
    (Bool.or_eq_true _ _).mpr (partsPrecede_total p.sortKey q.sortKey)
  exact List.pairwise_mergeSort htrans htotal paths

/-- Paths that texts write are sorted alike whatever their order. -/
theorem sorted_eq_of_perm {paths others : List Path} (h : ∀ p ∈ paths, ∃ s, p = ofText s)
    (hperm : others.Perm paths) : sorted others = sorted paths := by
  have hall : (sorted others).Perm (sorted paths) :=
    (perm_sorted others).trans (hperm.trans (perm_sorted paths).symm)
  refine hall.eq_of_pairwise (fun p q hp hq hpq hqp => ?_) (pairwise_sorted others)
    (pairwise_sorted paths)
  obtain ⟨s, rfl⟩ := h p (hperm.mem_iff.mp ((perm_sorted others).mem_iff.mp hp))
  obtain ⟨t, rfl⟩ := h q ((perm_sorted paths).mem_iff.mp hq)
  exact eq_of_sortKey_eq (eq_of_partsPrecede hpq hqp)

end ApiDocs.Path
