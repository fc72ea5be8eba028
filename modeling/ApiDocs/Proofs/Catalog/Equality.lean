import ApiDocs.Catalog.Basic
import ApiDocs.Proofs.KeyTable

/-!
# Equality of catalogs

Identifiers and references are compared by their texts, and everything that has some is compared part
by part.  Whatever it is, it is equal to itself.

* `KeyTable.beq_of_rel`: tables are equal when what they hold under each key is;
* the instances of `ReflBEq`: types, members and what they are made of are equal to themselves.
-/

namespace ApiDocs

/-! ## Values that may be missing -/

section
variable {α β : Type} {R : α → β → Prop}

theorem isSome_eq_of_rel {v : Option α} {w : Option β} (h : Option.Rel R v w) :
    v.isSome = w.isSome := by
  cases h <;> rfl

theorem rel_of_isSome {v : Option α} {w : Option β} (hsome : v.isSome ↔ w.isSome)
    (h : ∀ a b, v = some a → w = some b → R a b) : Option.Rel R v w := by
  cases v with
  | none =>
    cases w with
    | none => exact .none
    | some b => exact absurd (hsome.mpr rfl) Bool.false_ne_true
  | some a =>
    cases w with
    | none => exact absurd (hsome.mp rfl) Bool.false_ne_true
    | some b => exact .some (h a b rfl rfl)

theorem eq_of_rel {R : α → α → Prop} {v w : Option α} (h : Option.Rel R v w)
    (heq : ∀ a b, v = some a → w = some b → R a b → a = b) : v = w := by
  cases h with
  | none => rfl
  | some hab => rw [heq _ _ rfl rfl hab]

end

/-! ## Tables -/

theorem Entries.beq_of_forall {α : Type} [BEq α] {es fs : List (String × α)}
    (hkeys : es.map (·.1) = fs.map (·.1))
    (hvalues : ∀ e ∈ es, ∀ f ∈ fs, e.1 = f.1 → (e.2 == f.2) = true) : (es == fs) = true := by
  induction es generalizing fs with
  | nil =>
    cases fs with
    | nil => rfl
    | cons f fs => cases hkeys
  | cons e es ih =>
    cases fs with
    | nil => cases hkeys
    | cons f fs =>
      obtain ⟨hkey, hkeys⟩ := List.cons.inj hkeys
      have hvalue := hvalues e List.mem_cons_self f List.mem_cons_self hkey
      have hrest := ih hkeys fun e' he' f' hf' =>
        hvalues e' (List.mem_cons_of_mem e he') f' (List.mem_cons_of_mem f hf')
      have hhead : (e == f) = true := by
        show (e.1 == f.1 && e.2 == f.2) = true
        rw [beq_iff_eq.mpr hkey, hvalue, Bool.and_self]
      rw [List.cons_beq_cons, hhead, hrest, Bool.and_self]

namespace KeyTable

variable {α β : Type}

theorem keys_map (f : α → β) (t : KeyTable α) : (t.map f).keys = t.keys := by
  rw [keys, map, List.map_map]
  rfl

/-- Tables that hold something under the same keys have the same keys. -/
theorem keys_eq_of_isSome {t : KeyTable α} {u : KeyTable β}
    (h : ∀ key, (t.get? key).isSome = (u.get? key).isSome) : t.keys = u.keys := by
  have hunits : t.map (fun _ => ()) = u.map fun _ => () := by
    refine ext_get? fun key => ?_
    rw [get?_map, get?_map]
    have hsome := h key
    cases ht : t.get? key <;> cases hu : u.get? key <;> rw [ht, hu] at hsome
    · rfl
    · cases hsome
    · cases hsome
    · rfl
  rw [← keys_map (fun _ => ()) t, hunits, keys_map]

/-- Tables are equal when what they hold under each key is. -/
theorem beq_of_rel [BEq α] {t u : KeyTable α}
    (h : ∀ key, Option.Rel (fun v w => (v == w) = true) (t.get? key) (u.get? key)) :
    (t == u) = true := by
  have hkeys := keys_eq_of_isSome fun key => isSome_eq_of_rel (h key)
  refine Entries.beq_of_forall hkeys fun e he f hf hkey => ?_
  have hrel := h e.1
  rw [get?_eq_some_iff.mpr he, hkey, get?_eq_some_iff.mpr hf] at hrel
  cases hrel with
  | some hvalue => exact hvalue

instance [BEq α] [ReflBEq α] : ReflBEq (KeyTable α) where
  rfl {t} := beq_self_eq_true t.entries

end KeyTable

/-! ## What is equal to itself -/

instance : ReflBEq Identifier where
  rfl {x} := beq_self_eq_true x.text

instance : ReflBEq TypeRef where
  rfl {t} := beq_self_eq_true t.text

instance : ReflBEq ExceptionDoc where
  rfl {e} := by
    show (e.cref == e.cref && e.description == e.description) = true
    rw [beq_self_eq_true, beq_self_eq_true, Bool.and_self]

instance : ReflBEq ParameterDoc where
  rfl {p} := by
    show (p.name == p.name && p.type == p.type && p.kind == p.kind
      && p.description == p.description) = true
    simp only [beq_self_eq_true, Bool.and_self]

instance : ReflBEq MethodParts where
  rfl {m} := by
    show (m.typeParameters == m.typeParameters && m.parameters == m.parameters) = true
    rw [beq_self_eq_true, beq_self_eq_true, Bool.and_self]

instance : (c : MemberClass) → ReflBEq c.Detail
  | .method => inferInstanceAs (ReflBEq MethodParts)
  | .field => inferInstanceAs (ReflBEq Unit)
  | .property => inferInstanceAs (ReflBEq Accessors)
  | .event => inferInstanceAs (ReflBEq Accessors)

instance {c : MemberClass} : ReflBEq (Member c) where
  rfl {m} := by
    show (m.identifier == m.identifier && m.metadata == m.metadata
      && m.exceptions == m.exceptions && m.detail == m.detail) = true
    simp only [beq_self_eq_true, Bool.and_self]

instance : ReflBEq MemberTables where
  rfl {t} := List.all_eq_true.mpr fun c _ => beq_self_eq_true (t.get c)

instance : ReflBEq TypeDoc where
  rfl {t} := by
    show (t.identifier == t.identifier && t.metadata == t.metadata && t.exceptions == t.exceptions
      && t.typeParameters == t.typeParameters && t.members == t.members) = true
    simp only [beq_self_eq_true, Bool.and_self]

instance : ReflBEq Catalog where
  rfl {c} := beq_self_eq_true c.table

end ApiDocs
