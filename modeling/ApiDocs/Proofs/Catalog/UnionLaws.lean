import ApiDocs.Proofs.Catalog.Listing
import ApiDocs.Proofs.Catalog.OuterJoin
import ApiDocs.Proofs.Catalog.Union

/-!
# Uniting in any order

Uniting copies one catalog and goes through the types of the other one by their keys, and it stops at
the first key that is taken.  Which side is copied makes no difference: the keys ascend on both sides,
so it is the least of the shared keys that is met first, and what a union holds does not depend on the
way to it.

* `Catalog.IsFirstShared`: the least key that two catalogs share;
* `Catalog.union_eq_error_iff`: it is to blame when they cannot be united;
* `Catalog.IsUnion.union_eq_ok_iff`: one catalog more, as far as it is apart;
* `Catalog.union_comm_and_assoc`: uniting commutes and associates, errors included.
-/

namespace ApiDocs.Catalog

variable {a b c d u : Catalog} {f : Fault}

/-! ## The key that is to blame -/

/-- The least key that two catalogs share. -/
structure IsFirstShared (c d : Catalog) (key : String) : Prop where
  left : key ∈ c.keys
  right : key ∈ d.keys
  least : ∀ other ∈ c.keys, other ∈ d.keys → other ≠ key → key < other
  /-- That it comes before the others goes by the numbers of its symbols. -/
  byNumbers : ∀ other ∈ c.keys, other ∈ d.keys → other ≠ key → ∀ xs ys, key = Text.ofSymbols xs →
    other = Text.ofSymbols ys → Text.SymbolsLt xs ys

theorem IsFirstShared.symm {key : String} (h : c.IsFirstShared d key) : d.IsFirstShared c key where
  left := h.right
  right := h.left
  least other hd hc := h.least other hc hd
  byNumbers other hd hc := h.byNumbers other hc hd

/-- What is found first in a list that ascends is least. -/
theorem find?_eq_some_iff_of_pairwise {keys : List String} (hasc : keys.Pairwise (· < ·))
    {p : String → Bool} {key : String} : keys.find? p = some key ↔
      key ∈ keys ∧ p key ∧ ∀ other ∈ keys, p other → other ≠ key → key < other := by
  induction keys with
  | nil => exact ⟨nofun, nofun⟩
  | cons k keys ih =>
    obtain ⟨hhead, htail⟩ := List.pairwise_cons.mp hasc
    rw [List.find?_cons]
    cases hk : p k with
    | true =>
      constructor
      · intro heq
        obtain rfl := Option.some.inj heq
        refine ⟨List.mem_cons_self, hk, fun other hmem _ hne => ?_⟩
        exact hhead other ((List.mem_cons.mp hmem).resolve_left hne)
      · rintro ⟨hmem, -, hleast⟩
        rcases List.mem_cons.mp hmem with rfl | hmem
        · rfl
        · have hlt := hhead key hmem
          have hne : k ≠ key := fun heq => String.lt_irrefl key (heq ▸ hlt)
          exact absurd hlt (String.lt_asymm (hleast k List.mem_cons_self hk hne))
    | false =>
      have hne : ∀ other, p other → other ≠ k := by
        rintro other hother rfl
        rw [hk] at hother
        cases hother
      show keys.find? p = some key ↔ _
      rw [ih htail]
      constructor
      · rintro ⟨hmem, hkey, hleast⟩
        refine ⟨List.mem_cons_of_mem _ hmem, hkey, fun other hother hp => ?_⟩
        exact hleast other ((List.mem_cons.mp hother).resolve_left (hne other hp)) hp
      · rintro ⟨hmem, hkey, hleast⟩
        refine ⟨(List.mem_cons.mp hmem).resolve_left (hne key hkey), hkey, fun other hother => ?_⟩
        exact hleast other (List.mem_cons_of_mem _ hother)

theorem isFirstShared_iff {key : String} :
    c.IsFirstShared d key ↔ d.keys.find? c.table.contains = some key := by
  have hasc : d.keys.Pairwise (· < ·) := d.table.pairwise_keys
  rw [find?_eq_some_iff_of_pairwise hasc]
  simp only [KeyTable.contains_iff_mem_keys]
  constructor
  · intro h
    exact ⟨h.right, h.left, fun other hd hc => h.least other hc hd⟩
  · rintro ⟨hd, hc, hleast⟩
    refine ⟨hc, hd, fun other hother hother' => hleast other hother' hother, ?_⟩
    rintro other hother hother' hne xs ys rfl rfl
    exact Text.ofSymbols_lt_iff.mp (hleast _ hother' hother hne)

/-- There is a least key among those that two catalogs share. -/
theorem exists_isFirstShared_iff :
    (∃ key, c.IsFirstShared d key) ↔ ∃ key, key ∈ c.keys ∧ key ∈ d.keys := by
  constructor
  · rintro ⟨key, h⟩
    exact ⟨key, h.left, h.right⟩
  · rintro ⟨key, hc, hd⟩
    obtain ⟨first, hfirst⟩ := Option.isSome_iff_exists.mp
      (List.find?_isSome.mpr ⟨key, hd, KeyTable.contains_iff_mem_keys.mpr hc⟩)
    exact ⟨first, isFirstShared_iff.mpr hfirst⟩

/-- Two catalogs cannot be united when they share a key, and then the least one is to blame. -/
theorem union_eq_error_iff (hd : d.IsKeyed) :
    c.union d = .error f ↔ ∃ key, c.IsFirstShared d key ∧ f = .duplicate key := by
  simp only [union_eq_error_iff_find? hd, isFirstShared_iff]

theorem exists_union_eq_error_iff (hd : d.IsKeyed) :
    (∃ f, c.union d = .error f) ↔ ∃ key, key ∈ c.keys ∧ key ∈ d.keys := by
  rw [← exists_isFirstShared_iff]
  simp only [union_eq_error_iff hd]
  constructor
  · rintro ⟨_, key, hkey, -⟩
    exact ⟨key, hkey⟩
  · rintro ⟨key, hkey⟩
    exact ⟨_, key, hkey, rfl⟩

/-! ## What is held -/

theorem isUnion_singleton (c : Catalog) : IsUnion [c] c := by
  refine ⟨List.pairwise_singleton _ _, fun key t => ?_⟩
  rw [List.exists_mem_cons_iff]
  exact (or_iff_left nofun).symm

/-- One catalog more, as far as it is apart from those before it. -/
theorem IsUnion.union_eq_ok_iff {catalogs : List Catalog} (h : IsUnion catalogs c)
    (hd : d.IsKeyed) : c.union d = .ok u ↔ IsUnion (d :: catalogs) u := by
  constructor
  · exact h.of_union hd
  · intro hu
    obtain ⟨u', hunion, hu'⟩ := h.exists_union hd hu.apart
    rw [hunion, hu'.eq hu]

theorem isKeyed_of_union (hc : c.IsKeyed) (hd : d.IsKeyed) (h : c.union d = .ok u) : u.IsKeyed := by
  intro key t ht
  rcases (get?_eq_some_iff_of_union hd h).mp ht with ht | ht
  · exact hd key t ht
  · exact hc key t ht

/-- Uniting commutes, errors included. -/
theorem union_comm (hc : c.IsKeyed) (hd : d.IsKeyed) : c.union d = d.union c := by
  cases h : c.union d with
  | error f =>
    obtain ⟨key, hkey, rfl⟩ := (union_eq_error_iff hd).mp h
    exact ((union_eq_error_iff hc).mpr ⟨key, hkey.symm, rfl⟩).symm
  | ok u =>
    have hu := ((isUnion_singleton c).union_eq_ok_iff hd).mp h
    exact (((isUnion_singleton d).union_eq_ok_iff hc).mpr (hu.perm (.swap _ _ _))).symm

/-- Two unions one after the other. -/
theorem bind_union_eq_ok_iff (hb : b.IsKeyed) (hc : c.IsKeyed) :
    (a.union b >>= fun ab => ab.union c) = .ok u ↔ IsUnion [c, b, a] u := by
  have hsingle := isUnion_singleton a
  rw [bind_eq_ok_iff]
  constructor
  · rintro ⟨ab, hab, h⟩
    exact ((hsingle.union_eq_ok_iff hb).mp hab).of_union hc h
  · intro hu
    obtain ⟨ab, hab, hunion⟩ := hsingle.exists_union hb (List.pairwise_cons.mp hu.apart).2
    exact ⟨ab, hab, (hunion.union_eq_ok_iff hc).mpr hu⟩

theorem union_assoc (ha : a.IsKeyed) (hb : b.IsKeyed) (hc : c.IsKeyed) :
    (a.union b >>= fun ab => ab.union c) = .ok u ↔
      (b.union c >>= fun bc => a.union bc) = .ok u := by
  have hturn : (b.union c >>= fun bc => a.union bc) = b.union c >>= fun bc => bc.union a := by
    cases h : b.union c with
    | error f => rfl
    | ok bc => exact union_comm ha (isKeyed_of_union hb hc h)
  rw [hturn, bind_union_eq_ok_iff hb hc, bind_union_eq_ok_iff hc ha]
  have hperm : [c, b, a].Perm [a, c, b] := @List.perm_append_comm _ [c, b] [a]
  exact ⟨fun hu => hu.perm hperm, fun hu => hu.perm hperm.symm⟩

/-! ## Both -/

/-- Catalogs that are made of types are united in any order.  Two of them cannot be united when they
share a key, and either way round it is the least of those keys that is to blame; otherwise either way
makes the same, and everything of both is there as it was.  Of three, it does not matter which two are
united first. -/
theorem union_comm_and_assoc (ha : a.IsKeyed) (hb : b.IsKeyed) (hc : c.IsKeyed) :
    ((∃ f, a.union b = .error f) ↔ ∃ key, key ∈ a.keys ∧ key ∈ b.keys) ∧
    (∀ f, a.union b = .error f → ∃ key, a.IsFirstShared b key ∧ f = .duplicate key) ∧
    a.union b = b.union a ∧
    (∀ u, a.union b = .ok u → ∀ key t, u.table.get? key = some t ↔
      a.table.get? key = some t ∨ b.table.get? key = some t) ∧
    ∀ u, (a.union b >>= fun ab => ab.union c) = .ok u ↔
      (b.union c >>= fun bc => a.union bc) = .ok u := by
  refine ⟨exists_union_eq_error_iff hb, fun f => (union_eq_error_iff hb).mp, union_comm ha hb, ?_,
    fun u => union_assoc ha hb hc⟩
  intro u h key t
  rw [get?_eq_some_iff_of_union hb h, or_comm]

/-- Catalogs that share two keys, and catalogs that share none. -/
theorem union_comm_and_assoc_of_pairs :
    (∃ key, (pairOfTypes ["f"] "B").IsFirstShared (pairOfTypes ["g"] "B") key ∧
      (pairOfTypes ["f"] "B").union (pairOfTypes ["g"] "B") = .error (.duplicate key) ∧
      (pairOfTypes ["g"] "B").union (pairOfTypes ["f"] "B") = .error (.duplicate key)) ∧
    ∃ u, ((pairOfTypes ["f"] "B").union (ofType unnamedType) >>= fun ab =>
        ab.union (ofType { identifier := { name := "D" } })) = .ok u ∧
      ((ofType unnamedType).union (ofType { identifier := { name := "D" } }) >>= fun bc =>
        (pairOfTypes ["f"] "B").union bc) = .ok u := by
  have hf := isKeyed_pairOfTypes ["f"] "B"
  have hg := isKeyed_pairOfTypes ["g"] "B"
  constructor
  · obtain ⟨hshared, hfirst, hcomm, -⟩ := union_comm_and_assoc hf hg isKeyed_empty
    obtain ⟨f, hunion⟩ := hshared.mpr ⟨"A", by decide, by decide⟩
    obtain ⟨key, hkey, rfl⟩ := hfirst f hunion
    exact ⟨key, hkey, hunion, hcomm.symm.trans hunion⟩
  · obtain ⟨-, -, -, -, hassoc⟩ := union_comm_and_assoc hf (isKeyed_ofType unnamedType)
      (isKeyed_ofType { identifier := { name := "D" } })
    exact ⟨_, rfl, (hassoc _).mp rfl⟩

end ApiDocs.Catalog
