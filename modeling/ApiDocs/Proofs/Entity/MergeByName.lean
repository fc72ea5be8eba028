import ApiDocs.Entity.Doc

/-!
# Merging by name associates

`mergeByName` folds documented entries one by one into the last structural entry of their name.  What
comes of it can be said entry by entry: `absorb` leaves every structural entry but the last of a name
as it is and combines that one with all documented entries of the name in their order.  In this form
names do not interfere with one another, and the two ways of merging three lists are compared name by
name.

* `mergeByName_eq_absorb`: a merge is what the structural entries absorb and the documented entries
  of other names;
* `mergeByName_assoc`: merges associate when combining two entries does;
* `mergeByName_self`: a list merged with itself stays as it is when the last of several documented
  entries counts.
-/

namespace ApiDocs

namespace MergeByName

variable {α : Type} (nameOf : α → String) (combine : α → α → α)

/-- Whether some entry has a name. -/
def occurs (name : String) (xs : List α) : Bool := xs.any fun x => nameOf x == name

/-- The entries of a name. -/
def named (name : String) (xs : List α) : List α := xs.filter fun x => nameOf x == name

/-- Each last entry of a name is combined with all entries of that name in another list. -/
def absorb (ds : List α) : List α → List α
  | [] => []
  | x :: xs =>
    (if occurs nameOf (nameOf x) xs then x else (named nameOf (nameOf x) ds).foldl combine x)
      :: absorb ds xs

variable {nameOf combine}

/-! ## Names -/

theorem occurs_cons (name : String) (x : α) (xs : List α) :
    occurs nameOf name (x :: xs) = (nameOf x == name || occurs nameOf name xs) := rfl

theorem occurs_append (name : String) (xs ys : List α) :
    occurs nameOf name (xs ++ ys) = (occurs nameOf name xs || occurs nameOf name ys) :=
  List.any_append

theorem occurs_congr {xs ys : List α} (h : xs.map nameOf = ys.map nameOf) (name : String) :
    occurs nameOf name xs = occurs nameOf name ys := by
  have hmap : ∀ zs : List α, occurs nameOf name zs = (zs.map nameOf).any (· == name) := by
    intro zs
    rw [List.any_map]
    rfl
  rw [hmap, hmap, h]

theorem occurs_of_mem {x : α} {xs : List α} (h : x ∈ xs) : occurs nameOf (nameOf x) xs = true :=
  List.any_eq_true.mpr ⟨x, h, beq_self_eq_true _⟩

theorem named_nil (name : String) : named nameOf name ([] : List α) = [] := rfl

theorem named_eq_nil {name : String} {xs : List α} (h : occurs nameOf name xs = false) :
    named nameOf name xs = [] := by
  rw [occurs, List.any_eq_false] at h
  exact List.filter_eq_nil_iff.mpr h

theorem named_append (name : String) (xs ys : List α) :
    named nameOf name (xs ++ ys) = named nameOf name xs ++ named nameOf name ys :=
  List.filter_append xs ys

theorem named_ne_nil {name : String} {xs : List α} (h : occurs nameOf name xs = true) :
    named nameOf name xs ≠ [] := by
  obtain ⟨x, hx, hname⟩ := List.any_eq_true.mp h
  exact List.ne_nil_of_mem (List.mem_filter.mpr ⟨hx, hname⟩)

theorem nameOf_of_mem_named {name : String} {xs : List α} :
    ∀ x ∈ named nameOf name xs, nameOf x = name := by
  intro x hx
  exact beq_iff_eq.mp (List.mem_filter.mp hx).2

theorem named_cons_of_eq {name : String} {x : α} (h : nameOf x = name) (xs : List α) :
    named nameOf name (x :: xs) = x :: named nameOf name xs :=
  List.filter_cons_of_pos (beq_iff_eq.mpr h)

theorem named_cons_of_ne {name : String} {x : α} (h : nameOf x ≠ name) (xs : List α) :
    named nameOf name (x :: xs) = named nameOf name xs := by
  rw [named, List.filter_cons_of_neg]
  · rfl
  · rw [beq_iff_eq]
    exact h

theorem named_filter {name : String} (q : String → Bool) (xs : List α) :
    named nameOf name (xs.filter fun x => q (nameOf x)) =
      if q name then named nameOf name xs else [] := by
  rw [named, List.filter_filter]
  split
  · next hq =>
    refine List.filter_congr fun x _ => ?_
    by_cases hx : nameOf x = name
    · rw [hx, hq, Bool.and_true]
    · rw [beq_eq_false_iff_ne.mpr hx, Bool.false_and]
  · next hq =>
    refine List.filter_eq_nil_iff.mpr fun x _ => ?_
    rw [Bool.and_eq_true, beq_iff_eq]
    rintro ⟨rfl, hq'⟩
    exact hq hq'

theorem occurs_filter {name : String} (q : String → Bool) (xs : List α) (hq : q name = true) :
    occurs nameOf name (xs.filter fun x => q (nameOf x)) = occurs nameOf name xs := by
  rw [occurs, List.any_filter, occurs]
  congr 1
  funext x
  by_cases hx : nameOf x = name
  · rw [hx, hq, Bool.true_and]
  · rw [beq_eq_false_iff_ne.mpr hx, Bool.and_false]

theorem occurs_filter_of_not {name : String} (q : String → Bool) (xs : List α)
    (hq : q name = false) : occurs nameOf name (xs.filter fun x => q (nameOf x)) = false := by
  rw [occurs, List.any_filter, List.any_eq_false]
  intro x _ hx
  rw [Bool.and_eq_true, beq_iff_eq] at hx
  obtain ⟨hx, rfl⟩ := hx
  rw [hq] at hx
  cases hx

/-! ## Absorbing -/

theorem absorb_congr {ds ds' xs : List α} (h : ∀ name, occurs nameOf name xs = true →
    named nameOf name ds = named nameOf name ds') :
    absorb nameOf combine ds xs = absorb nameOf combine ds' xs := by
  induction xs with
  | nil => rfl
  | cons x xs ih =>
    rw [absorb, absorb, h (nameOf x) (by rw [occurs_cons, beq_self_eq_true, Bool.true_or]), ih]
    intro name hname
    exact h name (by rw [occurs_cons, hname, Bool.or_true])

theorem absorb_nil (xs : List α) : absorb nameOf combine [] xs = xs := by
  induction xs with
  | nil => rfl
  | cons x xs ih =>
    rw [absorb, ih]
    show (if _ then x else x) :: xs = _
    rw [ite_self]

theorem absorb_append {xs ys : List α} (h : ∀ x ∈ xs, occurs nameOf (nameOf x) ys = false)
    (ds : List α) : absorb nameOf combine ds (xs ++ ys) =
      absorb nameOf combine ds xs ++ absorb nameOf combine ds ys := by
  induction xs with
  | nil => rfl
  | cons x xs ih =>
    rw [List.forall_mem_cons] at h
    rw [List.cons_append, absorb, absorb, ih h.2, occurs_append, h.1, Bool.or_false,
      List.cons_append]

/-! ## One entry after another -/

theorem isSome_lastIndex? (p : α → Bool) (xs : List α) : (lastIndex? p xs).isSome = xs.any p := by
  induction xs with
  | nil => rfl
  | cons x xs ih =>
    rw [lastIndex?, List.any_cons, ← ih]
    split
    · next h => rw [h, Option.isSome_some, Option.isSome_some, Bool.or_true]
    · next h => cases hx : p x <;> rw [h] <;> rfl

theorem lastIndex?_eq_none_iff {name : String} {xs : List α} :
    lastIndex? (fun s => nameOf s == name) xs = none ↔ occurs nameOf name xs = false := by
  rw [occurs, ← isSome_lastIndex?, Option.isSome_eq_false_iff, Option.isNone_iff_eq_none]

theorem absorb_append_of_not_occurs {d : α} {xs : List α} (h : occurs nameOf (nameOf d) xs = false)
    (ds : List α) : absorb nameOf combine (ds ++ [d]) xs = absorb nameOf combine ds xs := by
  refine absorb_congr fun name hname => ?_
  rw [named_append, named_cons_of_ne, named_nil, List.append_nil]
  rintro rfl
  rw [h] at hname
  cases hname

/-- What is absorbed after the others changes the last entry of its name. -/
theorem modify_absorb_append {d : α} {xs : List α} {i : Nat}
    (h : lastIndex? (fun s => nameOf s == nameOf d) xs = some i) (ds rest : List α) :
    (absorb nameOf combine ds xs ++ rest).modify i (combine · d) =
      absorb nameOf combine (ds ++ [d]) xs ++ rest := by
  induction xs generalizing i with
  | nil => cases h
  | cons x xs ih =>
    rw [lastIndex?] at h
    split at h
    · next j hj =>
      cases h
      have hlater : occurs nameOf (nameOf d) xs = true := by
        rw [occurs, ← isSome_lastIndex?, hj, Option.isSome_some]
      rw [absorb, absorb, List.cons_append, List.modify_succ_cons, ih hj, List.cons_append]
      congr 1
      by_cases hx : nameOf d = nameOf x
      · rw [← hx, hlater, if_pos rfl, if_pos rfl]
      · rw [named_append, named_cons_of_ne hx, named_nil, List.append_nil]
    · next hnone =>
      have hlast := lastIndex?_eq_none_iff.mp hnone
      split at h
      · next hx =>
        cases h
        have hx : nameOf x = nameOf d := beq_iff_eq.mp hx
        rw [absorb, absorb, hx, hlast, if_neg Bool.false_ne_true, if_neg Bool.false_ne_true,
          named_append, named_cons_of_eq rfl, named_nil, List.foldl_append,
          absorb_append_of_not_occurs hlast]
        rfl
      · cases h

/-- One documented entry more: an entry absorbs it, or it follows behind. -/
theorem mergeEntry_absorb (xs ds : List α) (d : α) :
    mergeEntry nameOf combine xs
        (absorb nameOf combine ds xs ++ ds.filter fun d => !occurs nameOf (nameOf d) xs) d =
      absorb nameOf combine (ds ++ [d]) xs ++
        (ds ++ [d]).filter fun d => !occurs nameOf (nameOf d) xs := by
  rw [mergeEntry, List.filter_append]
  split
  · next hnone =>
    have hnone := lastIndex?_eq_none_iff.mp hnone
    rw [absorb_append_of_not_occurs hnone, List.append_assoc,
      List.filter_cons_of_pos (by rw [hnone, Bool.not_false]), List.filter_nil]
  · next i hi =>
    have hknown : occurs nameOf (nameOf d) xs = true := by
      rw [occurs, ← isSome_lastIndex?, hi, Option.isSome_some]
    rw [modify_absorb_append hi,
      List.filter_cons_of_neg (by rw [hknown, Bool.not_true]; exact Bool.false_ne_true),
      List.filter_nil, List.append_nil]

/-- What comes of documented entries `ds` after the entries `done`. -/
theorem foldl_mergeEntry (xs ds done : List α) :
    ds.foldl (mergeEntry nameOf combine xs)
        (absorb nameOf combine done xs ++ done.filter fun d => !occurs nameOf (nameOf d) xs) =
      absorb nameOf combine (done ++ ds) xs ++
        (done ++ ds).filter fun d => !occurs nameOf (nameOf d) xs := by
  induction ds generalizing done with
  | nil => rw [List.append_nil, List.foldl_nil]
  | cons d ds ih =>
    rw [List.foldl_cons, mergeEntry_absorb, ih, List.append_assoc, List.singleton_append]

/-- A merge is what the structural entries absorb and the documented entries of other names. -/
theorem mergeByName_eq_absorb (xs ds : List α) : mergeByName nameOf combine xs ds =
    absorb nameOf combine ds xs ++ ds.filter fun d => !occurs nameOf (nameOf d) xs := by
  have hrun := @foldl_mergeEntry α nameOf combine xs ds []
  rw [absorb_nil, List.filter_nil, List.append_nil, List.nil_append] at hrun
  exact hrun

section
variable (hname : ∀ s d, nameOf s = nameOf d → nameOf (combine s d) = nameOf s)
include hname

/-- Combining with entries of the same name leaves what a single combination leaves. -/
theorem apply_foldl {β : Type} {f : α → β}
    (hf : ∀ s d, nameOf s = nameOf d → f (combine s d) = f s) {x : α} {ds : List α}
    (h : ∀ d ∈ ds, nameOf d = nameOf x) : f (ds.foldl combine x) = f x := by
  induction ds generalizing x with
  | nil => rfl
  | cons d ds ih =>
    rw [List.forall_mem_cons] at h
    have hx := hname x d h.1.symm
    rw [List.foldl_cons, ih fun d' hd' => (h.2 d' hd').trans hx.symm, hf x d h.1.symm]

theorem nameOf_foldl {x : α} {ds : List α} (h : ∀ d ∈ ds, nameOf d = nameOf x) :
    nameOf (ds.foldl combine x) = nameOf x :=
  apply_foldl hname hname h

theorem map_absorb {β : Type} {f : α → β}
    (hf : ∀ s d, nameOf s = nameOf d → f (combine s d) = f s) (ds xs : List α) :
    (absorb nameOf combine ds xs).map f = xs.map f := by
  induction xs with
  | nil => rfl
  | cons x xs ih =>
    rw [absorb, List.map_cons, List.map_cons, ih]
    split
    · rfl
    · rw [apply_foldl hname hf nameOf_of_mem_named]

theorem map_nameOf_absorb (ds xs : List α) :
    (absorb nameOf combine ds xs).map nameOf = xs.map nameOf :=
  map_absorb hname hname ds xs

/-- What combining leaves as it is stands in front after a merge. -/
theorem map_prefix_map_mergeByName {β : Type} {f : α → β}
    (hf : ∀ s d, nameOf s = nameOf d → f (combine s d) = f s) (xs ds : List α) :
    xs.map f <+: (mergeByName nameOf combine xs ds).map f := by
  rw [mergeByName_eq_absorb, List.map_append, map_absorb hname hf]
  exact List.prefix_append _ _

/-! ## Two merges -/

/-- What is said of names only may be asked before or after. -/
theorem filter_absorb (q : String → Bool) (ds xs : List α) :
    (absorb nameOf combine ds xs).filter (fun x => q (nameOf x)) =
      absorb nameOf combine ds (xs.filter fun x => q (nameOf x)) := by
  induction xs with
  | nil => rfl
  | cons x xs ih =>
    have hhead : nameOf (if occurs nameOf (nameOf x) xs then x else
        (named nameOf (nameOf x) ds).foldl combine x) = nameOf x := by
      split
      · rfl
      · exact nameOf_foldl hname nameOf_of_mem_named
    rw [absorb, List.filter_cons, List.filter_cons, hhead, ih]
    split
    · next hq => rw [absorb, occurs_filter q xs hq]
    · rfl

variable (hassoc : ∀ a b c, combine (combine a b) c = combine a (combine b c))
include hassoc

omit hname in
theorem combine_foldl (x d : α) (ds : List α) :
    combine x (ds.foldl combine d) = ds.foldl combine (combine x d) := by
  induction ds generalizing d with
  | nil => rfl
  | cons d' ds ih => rw [List.foldl_cons, ih, List.foldl_cons, hassoc]

omit hname in
/-- Entries of one name that absorb first are combined like entries that are absorbed together. -/
theorem foldl_absorb {name : String} {ds : List α} (hds : ∀ d ∈ ds, nameOf d = name)
    (hne : ds ≠ []) (x : α) (es : List α) :
    (absorb nameOf combine es ds).foldl combine x =
      (named nameOf name es).foldl combine (ds.foldl combine x) := by
  induction ds generalizing x with
  | nil => exact absurd rfl hne
  | cons d ds ih =>
    rw [List.forall_mem_cons] at hds
    rw [absorb, hds.1]
    cases ds with
    | nil => exact combine_foldl hassoc x d _
    | cons d' ds =>
      have hlater : occurs nameOf name (d' :: ds) = true := by
        rw [occurs_cons, hds.2 d' List.mem_cons_self, beq_self_eq_true, Bool.true_or]
      rw [hlater, if_pos rfl, List.foldl_cons, ih hds.2 (List.cons_ne_nil _ _)]
      rfl

theorem absorb_absorb (ds es xs : List α) :
    absorb nameOf combine es (absorb nameOf combine ds xs) =
      absorb nameOf combine (absorb nameOf combine es ds ++
        es.filter fun e => !occurs nameOf (nameOf e) ds) xs := by
  induction xs with
  | nil => rfl
  | cons x xs ih =>
    rw [absorb, absorb, absorb, ih, occurs_congr (map_nameOf_absorb hname ds xs)]
    split
    · rfl
    · next hlater =>
      have hx : nameOf ((named nameOf (nameOf x) ds).foldl combine x) = nameOf x :=
        nameOf_foldl hname nameOf_of_mem_named
      have hnamed : named nameOf (nameOf x) (absorb nameOf combine es ds) =
          absorb nameOf combine es (named nameOf (nameOf x) ds) :=
        filter_absorb hname (· == nameOf x) es ds
      have hrest : named nameOf (nameOf x) (es.filter fun e => !occurs nameOf (nameOf e) ds) =
          if !occurs nameOf (nameOf x) ds then named nameOf (nameOf x) es else [] :=
        named_filter (fun n => !occurs nameOf n ds) es
      rw [hx, if_neg hlater, named_append, hnamed, hrest]
      cases hds : occurs nameOf (nameOf x) ds with
      | true =>
        rw [Bool.not_true, if_neg Bool.false_ne_true, List.append_nil,
          foldl_absorb hassoc nameOf_of_mem_named (named_ne_nil hds)]
      | false =>
        rw [Bool.not_false, if_pos rfl, named_eq_nil hds]
        rfl

/-- Merges by name associate. -/
theorem mergeByName_assoc (xs ds es : List α) :
    mergeByName nameOf combine (mergeByName nameOf combine xs ds) es =
      mergeByName nameOf combine xs (mergeByName nameOf combine ds es) := by
  have hoccurs : ∀ name, occurs nameOf name (absorb nameOf combine ds xs) = occurs nameOf name xs :=
    occurs_congr (map_nameOf_absorb hname ds xs)
  have hapart : ∀ x ∈ absorb nameOf combine ds xs,
      occurs nameOf (nameOf x) (ds.filter fun d => !occurs nameOf (nameOf d) xs) = false := by
    intro x hx
    have hmem : occurs nameOf (nameOf x) (absorb nameOf combine ds xs) = true := occurs_of_mem hx
    rw [hoccurs] at hmem
    exact occurs_filter_of_not (fun name => !occurs nameOf name xs) ds (by rw [hmem, Bool.not_true])
  have hleft : ∀ name, occurs nameOf name (absorb nameOf combine ds xs ++
      ds.filter fun d => !occurs nameOf (nameOf d) xs) =
        (occurs nameOf name xs || occurs nameOf name ds) := by
    intro name
    rw [occurs_append, hoccurs]
    cases hxs : occurs nameOf name xs with
    | true => rw [Bool.true_or, Bool.true_or]
    | false =>
      rw [occurs_filter (fun name => !occurs nameOf name xs) ds (by rw [hxs, Bool.not_false])]
  rw [mergeByName_eq_absorb xs ds, mergeByName_eq_absorb _ es,
    absorb_append hapart, mergeByName_eq_absorb ds es, mergeByName_eq_absorb xs,
    absorb_absorb hname hassoc, List.filter_append,
    filter_absorb hname (fun name => !occurs nameOf name xs), List.filter_filter, List.append_assoc]
  congr 2
  refine List.filter_congr fun e _ => ?_
  rw [hleft, Bool.not_or]

end

/-! ## One list on both sides -/

section
variable (hlast : ∀ s d e, combine (combine s d) e = combine s e)
include hlast

/-- Of several documented entries the last one counts. -/
theorem foldl_append_singleton (x d : α) (ds : List α) :
    (ds ++ [d]).foldl combine x = combine x d := by
  induction ds generalizing x with
  | nil => rfl
  | cons e ds ih => rw [List.cons_append, List.foldl_cons, ih, hlast]

variable (hself : ∀ s, combine s s = s)
include hself

/-- The last entry of a name is the last one of its name that it is combined with. -/
theorem absorb_append_self (front xs : List α) : absorb nameOf combine (front ++ xs) xs = xs := by
  induction xs generalizing front with
  | nil => rfl
  | cons x xs ih =>
    have htail : absorb nameOf combine (front ++ x :: xs) xs = xs := by
      have hmoved := ih (front ++ [x])
      rw [List.append_assoc] at hmoved
      exact hmoved
    rw [absorb, htail]
    split
    · rfl
    · next hlater =>
      have hnone : named nameOf (nameOf x) xs = [] := named_eq_nil (Bool.not_eq_true _ ▸ hlater)
      rw [named_append, named_cons_of_eq rfl, hnone, foldl_append_singleton hlast, hself]

/-- A list merged with itself stays as it is, also when names are repeated in it. -/
theorem mergeByName_self (xs : List α) : mergeByName nameOf combine xs xs = xs := by
  have hnone : xs.filter (fun d => !occurs nameOf (nameOf d) xs) = [] := by
    refine List.filter_eq_nil_iff.mpr fun d hd => ?_
    rw [occurs_of_mem hd]
    exact Bool.false_ne_true
  rw [mergeByName_eq_absorb, hnone, List.append_nil]
  exact absorb_append_self hlast hself [] xs

end

end MergeByName

end ApiDocs
