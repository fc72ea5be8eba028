/-!
# Tables by text keys

A table holds one value under each of its keys, and is always gone through in the order of the keys.
The entries are kept sorted, so two tables with the same values under the same keys are equal.

* `KeyTable.get?_insert`: what a table holds after a value is written;
* `KeyTable.ext_get?`: a table is determined by what it holds;
* `KeyTable.get?_outerJoin`: what the join of two tables holds.
-/

namespace ApiDocs

/-! ## Sorted lists of entries -/

namespace Entries

variable {α : Type}

/-- The value under a key. -/
def find? (key : String) : List (String × α) → Option α
  | [] => none
  | (k, v) :: rest => if k = key then some v else find? key rest

/-- Writes a value under a key, in its place. -/
def insert (key : String) (value : α) : List (String × α) → List (String × α)
  | [] => [(key, value)]
  | (k, v) :: rest =>
    if key < k then (key, value) :: (k, v) :: rest
    else if key = k then (key, value) :: rest
    else (k, v) :: insert key value rest

/-- The keys ascend strictly. -/
def Sorted (es : List (String × α)) : Prop := es.Pairwise fun a b => a.1 < b.1

theorem mem_insert {key : String} {value : α} {es : List (String × α)} {e : String × α}
    (h : e ∈ insert key value es) : e = (key, value) ∨ e ∈ es := by
  induction es with
  | nil => simpa [insert] using h
  | cons a rest ih =>
    obtain ⟨k, v⟩ := a
    unfold insert at h
    split at h
    · simpa using h
    · split at h
      · rcases List.mem_cons.1 h with h | h
        · exact .inl h
        · exact .inr (List.mem_cons_of_mem _ h)
      · rcases List.mem_cons.1 h with h | h
        · exact .inr (h ▸ List.mem_cons_self)
        · rcases ih h with h | h
          · exact .inl h
          · exact .inr (List.mem_cons_of_mem _ h)

theorem sorted_insert {key : String} {value : α} {es : List (String × α)} (h : Sorted es) :
    Sorted (insert key value es) := by
  induction es with
  | nil => simp [insert, Sorted]
  | cons a rest ih =>
    obtain ⟨k, v⟩ := a
    obtain ⟨head, tail⟩ := List.pairwise_cons.1 h
    unfold insert
    split
    · rename_i hlt
      refine List.pairwise_cons.2 ⟨fun e he => ?_, h⟩
      rcases List.mem_cons.1 he with rfl | he
      · exact hlt
      · exact String.lt_trans hlt (head e he)
    · split
      · rename_i heq
        subst heq
        exact List.pairwise_cons.2 ⟨head, tail⟩
      · rename_i hlt hne
        refine List.pairwise_cons.2 ⟨fun e he => ?_, ih tail⟩
        rcases mem_insert he with rfl | he
        · exact Std.lt_of_le_of_ne (String.not_lt.1 hlt) (Ne.symm hne)
        · exact head e he

theorem find?_insert (key : String) (value : α) (es : List (String × α)) (q : String) :
    find? q (insert key value es) = if key = q then some value else find? q es := by
  induction es with
  | nil => simp [insert, find?]
  | cons a rest ih =>
    obtain ⟨k, v⟩ := a
    unfold insert
    split
    · simp [find?]
    · split
      · rename_i heq
        subst heq
        by_cases h : key = q <;> simp [find?, h]
      · rename_i hlt hne
        by_cases hk : k = q
        · have : ¬ key = q := fun h => hne (h.trans hk.symm)
          simp [find?, hk, this]
        · simp [find?, hk, ih]

theorem find?_eq_none_of_lt {key : String} {es : List (String × α)}
    (h : ∀ e ∈ es, key < e.1) : find? key es = none := by
  induction es with
  | nil => rfl
  | cons a rest ih =>
    obtain ⟨k, v⟩ := a
    have hlt : key < k := h _ List.mem_cons_self
    have hne : k ≠ key := fun e => String.lt_irrefl key (e ▸ hlt)
    simp [find?, hne, ih fun e he => h e (List.mem_cons_of_mem _ he)]

/-- Sorted entries are determined by the values under their keys. -/
theorem eq_of_find?_eq {es es' : List (String × α)} (h : Sorted es) (h' : Sorted es')
    (same : ∀ key, find? key es = find? key es') : es = es' := by
  induction es generalizing es' with
  | nil =>
    cases es' with
    | nil => rfl
    | cons a rest => simpa [find?] using same a.1
  | cons a rest ih =>
    obtain ⟨k, v⟩ := a
    obtain ⟨head, tail⟩ := List.pairwise_cons.1 h
    cases es' with
    | nil => simpa [find?] using same k
    | cons b rest' =>
      obtain ⟨k', v'⟩ := b
      obtain ⟨head', tail'⟩ := List.pairwise_cons.1 h'
      have hk : k = k' := by
        refine Decidable.byContradiction fun hne => ?_
        rcases Decidable.em (k < k') with hlt | hlt
        · have none' : find? k rest' = none :=
            find?_eq_none_of_lt fun e he => String.lt_trans hlt (head' e he)
          have := same k
          simp [find?, Ne.symm hne, none'] at this
        · have hgt : k' < k := Std.lt_of_le_of_ne (String.not_lt.1 hlt) (Ne.symm hne)
          have none : find? k' rest = none :=
            find?_eq_none_of_lt fun e he => String.lt_trans hgt (head e he)
          have := same k'
          simp [find?, hne, none] at this
      subst hk
      have hv : v = v' := by simpa [find?] using same k
      subst hv
      refine congrArg _ (ih tail tail' fun key => ?_)
      by_cases hkey : k = key
      · subst hkey
        rw [find?_eq_none_of_lt head, find?_eq_none_of_lt head']
      · simpa [find?, hkey] using same key

end Entries

/-! ## Tables -/

/-- One value under each of some keys, in the order of the keys. -/
structure KeyTable (α : Type) where
  entries : List (String × α)
  sorted : Entries.Sorted entries

namespace KeyTable

variable {α : Type}

/-- The table without entries. -/
def empty : KeyTable α := ⟨[], List.Pairwise.nil⟩

instance : Inhabited (KeyTable α) := ⟨empty⟩

/-- The keys in ascending order. -/
def keys (t : KeyTable α) : List String := t.entries.map (·.1)

/-- The values in the order of their keys. -/
def values (t : KeyTable α) : List α := t.entries.map (·.2)

/-- The number of entries. -/
def size (t : KeyTable α) : Nat := t.entries.length

/-- The value under a key. -/
def get? (t : KeyTable α) (key : String) : Option α := Entries.find? key t.entries

/-- Whether there is a value under a key. -/
def contains (t : KeyTable α) (key : String) : Bool := (t.get? key).isSome

/-- Writes a value under a key. -/
def insert (t : KeyTable α) (key : String) (value : α) : KeyTable α :=
  ⟨Entries.insert key value t.entries, Entries.sorted_insert t.sorted⟩

/-- The entries whose value passes a test. -/
def filter (p : α → Bool) (t : KeyTable α) : KeyTable α :=
  ⟨t.entries.filter fun e => p e.2, t.sorted.filter _⟩

/-- Every value changed under its key. -/
def map {β : Type} (f : α → β) (t : KeyTable α) : KeyTable β :=
  ⟨t.entries.map fun e => (e.1, f e.2), by simpa [Entries.Sorted, List.pairwise_map] using t.sorted⟩

/-- All entries of both tables; where both hold a value, `both` makes one of the two. -/
def outerJoin (both : α → α → α) (t u : KeyTable α) : KeyTable α :=
  u.entries.foldl
    (fun acc e => acc.insert e.1 (match t.get? e.1 with
      | some v => both v e.2
      | none => e.2)) t

instance [BEq α] : BEq (KeyTable α) := ⟨fun t u => t.entries == u.entries⟩

@[ext] theorem ext {t u : KeyTable α} (h : t.entries = u.entries) : t = u := by
  cases t; cases u; cases h; rfl

/-- A table is determined by what it holds. -/
theorem ext_get? {t u : KeyTable α} (h : ∀ key, t.get? key = u.get? key) : t = u :=
  ext (Entries.eq_of_find?_eq t.sorted u.sorted h)

@[simp] theorem get?_empty (key : String) : (empty : KeyTable α).get? key = none := rfl

theorem get?_insert (t : KeyTable α) (key : String) (value : α) (q : String) :
    (t.insert key value).get? q = if key = q then some value else t.get? q :=
  Entries.find?_insert key value t.entries q

theorem get?_foldl_insert (f : String → α → α) (es : List (String × α)) (h : Entries.Sorted es)
    (t : KeyTable α) (q : String) :
    (es.foldl (fun acc e => acc.insert e.1 (f e.1 e.2)) t).get? q =
      match Entries.find? q es with
      | some v => some (f q v)
      | none => t.get? q := by
  induction es generalizing t with
  | nil => rfl
  | cons e rest ih =>
    obtain ⟨k, v⟩ := e
    obtain ⟨head, tail⟩ := List.pairwise_cons.1 h
    rw [List.foldl_cons, ih tail, get?_insert]
    by_cases hk : k = q
    · subst hk
      simp [Entries.find?, Entries.find?_eq_none_of_lt head]
    · simp [Entries.find?, hk]

/-- What the join of two tables holds under a key. -/
theorem get?_outerJoin (both : α → α → α) (t u : KeyTable α) (key : String) :
    (outerJoin both t u).get? key =
      match t.get? key, u.get? key with
      | some v, some w => some (both v w)
      | none, w => w
      | v, none => v := by
  have step := get?_foldl_insert (fun k w => match t.get? k with
    | some v => both v w
    | none => w) u.entries u.sorted t key
  unfold outerJoin
  rw [step]
  unfold KeyTable.get?
  cases Entries.find? key t.entries <;> cases Entries.find? key u.entries <;> rfl

end KeyTable

end ApiDocs
