import ApiDocs.TypeRef
import Mathlib.Data.List.Basic
import Mathlib.Data.Set.Function

/-!
# Renaming the names of types

A renaming acts on every name of a reference at once, at every depth, so what it does is settled by
its values on the names that the reference mentions, and two renamings in a row are one.

* `TypeRef.mentions`: the names of a reference at every depth;
* `TypeRef.induction`: what holds of a reference when it holds of its arguments holds of all;
* `TypeRef.rename_congr`, `TypeRef.rename_rename`: what a renaming depends on, and two in a row;
* `TypeRef.typeAt?`, `TypeRef.typeAt?_rename`: the types within a reference, each at its place;
* `TypeRef.exists_rename_rename_eq`: a renaming that keeps names apart can be undone.
-/

namespace ApiDocs

mutual
/-- The names of the path and of the arguments at any depth. -/
def TypeRef.mentions : TypeRef → List String
  | .mk names _ => TypeName.mentionsAll names
/-- The names that several references mention. -/
def TypeRef.mentionsAll : List TypeRef → List String
  | [] => []
  | t :: ts => t.mentions ++ TypeRef.mentionsAll ts
/-- A name and the names in its arguments. -/
def TypeName.mentions : TypeName → List String
  | .mk name arguments => name :: TypeRef.mentionsAll arguments
/-- The names that a path mentions. -/
def TypeName.mentionsAll : List TypeName → List String
  | [] => []
  | n :: ns => n.mentions ++ TypeName.mentionsAll ns
end

theorem TypeRef.mentionsAll_eq_flatMap (ts : List TypeRef) :
    TypeRef.mentionsAll ts = ts.flatMap TypeRef.mentions := by
  induction ts with
  | nil => rfl
  | cons t ts ih => rw [TypeRef.mentionsAll, ih, List.flatMap_cons]

theorem TypeName.mentionsAll_eq_flatMap (ns : List TypeName) :
    TypeName.mentionsAll ns = ns.flatMap TypeName.mentions := by
  induction ns with
  | nil => rfl
  | cons n ns ih => rw [TypeName.mentionsAll, ih, List.flatMap_cons]

theorem TypeName.mentions_eq (n : TypeName) :
    n.mentions = n.name :: n.arguments.flatMap TypeRef.mentions := by
  cases n with
  | mk name arguments =>
    rw [mentions, TypeRef.mentionsAll_eq_flatMap, TypeName.name, TypeName.arguments]

theorem TypeName.rename_eq (f : String → String) (n : TypeName) :
    n.rename f = .mk (f n.name) (n.arguments.map (TypeRef.rename f)) := by
  cases n with
  | mk name arguments => rw [rename, TypeRef.renameAll_eq_map, TypeName.name, TypeName.arguments]

namespace TypeRef

theorem rename_mk (f : String → String) (names : List TypeName) (arrays : List Int) :
    (mk names arrays).rename f = mk (names.map (TypeName.rename f)) arrays := by
  rw [rename, TypeName.renameAll_eq_map]

theorem mentions_mk (names : List TypeName) (arrays : List Int) :
    (mk names arrays).mentions = names.flatMap TypeName.mentions := by
  rw [mentions, TypeName.mentionsAll_eq_flatMap]

/-- The names of the path are mentioned. -/
theorem name_mem_mentions {names : List TypeName} {arrays : List Int} {n : TypeName}
    (hn : n ∈ names) : n.name ∈ (mk names arrays).mentions := by
  rw [mentions_mk, List.mem_flatMap]
  refine ⟨n, hn, ?_⟩
  rw [TypeName.mentions_eq]
  exact List.mem_cons_self

/-- What an argument mentions is mentioned. -/
theorem mentions_argument_subset {names : List TypeName} {arrays : List Int} {n : TypeName}
    (hn : n ∈ names) {t : TypeRef} (ht : t ∈ n.arguments) :
    t.mentions ⊆ (mk names arrays).mentions := by
  intro a ha
  rw [mentions_mk, List.mem_flatMap]
  refine ⟨n, hn, ?_⟩
  rw [TypeName.mentions_eq]
  exact List.mem_cons_of_mem _ (List.mem_flatMap.mpr ⟨t, ht, ha⟩)

/-- What holds of a reference when it holds of all its arguments holds of every reference. -/
theorem induction {P : TypeRef → Prop}
    (h : ∀ names arrays, (∀ n ∈ names, ∀ t ∈ n.arguments, P t) → P (mk names arrays)) :
    ∀ t, P t
  | mk names arrays => h names arrays fun n hn t ht =>
    have hlt : sizeOf t < sizeOf (mk names arrays) := by
      have hname : sizeOf n < sizeOf names := List.sizeOf_lt_of_mem hn
      have hargument : sizeOf t < sizeOf n.arguments := List.sizeOf_lt_of_mem ht
      cases n with
      | mk name arguments =>
        simp only [TypeName.mk.sizeOf_spec, TypeName.arguments, mk.sizeOf_spec] at *
        omega
    induction h t
termination_by t => sizeOf t
decreasing_by exact hlt

/-! ## Places -/

/-- The path without the arguments of its names. -/
def path (t : TypeRef) : List String := t.names.map (·.name)

theorem path_rename (f : String → String) (t : TypeRef) : (t.rename f).path = t.path.map f := by
  obtain ⟨names, arrays⟩ := t
  rw [rename_mk]
  show (names.map (TypeName.rename f)).map TypeName.name = (names.map TypeName.name).map f
  rw [List.map_map, List.map_map]
  refine List.map_congr_left fun n _ => ?_
  rw [Function.comp_apply, TypeName.rename_eq]
  rfl

theorem arrays_rename (f : String → String) (t : TypeRef) : (t.rename f).arrays = t.arrays := by
  obtain ⟨names, arrays⟩ := t
  rw [rename_mk]
  rfl

/-- The type at a place: each step goes to a name of the path and on to one of its arguments. -/
def typeAt? : TypeRef → List (Nat × Nat) → Option TypeRef
  | t, [] => some t
  | t, (i, j) :: place => do
    let n ← t.names[i]?
    let argument ← n.arguments[j]?
    argument.typeAt? place

/-- Renaming keeps every type at its place. -/
theorem typeAt?_rename (f : String → String) (t : TypeRef) (place : List (Nat × Nat)) :
    (t.rename f).typeAt? place = (t.typeAt? place).map (TypeRef.rename f) := by
  induction place generalizing t with
  | nil => rfl
  | cons step place ih =>
    obtain ⟨i, j⟩ := step
    obtain ⟨names, arrays⟩ := t
    rw [rename_mk]
    show ((names.map (TypeName.rename f))[i]? >>= fun n => n.arguments[j]? >>= (·.typeAt? place)) =
      (names[i]? >>= fun n => n.arguments[j]? >>= (·.typeAt? place)).map (TypeRef.rename f)
    rw [List.getElem?_map]
    cases names[i]? with
    | none => rfl
    | some n =>
      show ((n.rename f).arguments[j]? >>= (·.typeAt? place)) =
        (n.arguments[j]? >>= (·.typeAt? place)).map (TypeRef.rename f)
      rw [TypeName.rename_eq, TypeName.arguments, List.getElem?_map]
      cases n.arguments[j]? with
      | none => rfl
      | some argument => exact ih argument

/-! ## Renamings -/

/-- Only the values on the mentioned names count. -/
theorem rename_congr {f g : String → String} {t : TypeRef} (h : ∀ a ∈ t.mentions, f a = g a) :
    t.rename f = t.rename g := by
  induction t using induction with
  | h names arrays ih =>
    rw [rename_mk, rename_mk]
    congr 1
    refine List.map_congr_left fun n hn => ?_
    rw [TypeName.rename_eq, TypeName.rename_eq, h n.name (name_mem_mentions hn)]
    congr 1
    exact List.map_congr_left fun t ht => ih n hn t ht fun a ha =>
      h a (mentions_argument_subset hn ht ha)

/-- Two renamings in a row are one. -/
theorem rename_rename (f g : String → String) (t : TypeRef) :
    (t.rename f).rename g = t.rename (g ∘ f) := by
  induction t using induction with
  | h names arrays ih =>
    rw [rename_mk, rename_mk, rename_mk, List.map_map]
    congr 1
    refine List.map_congr_left fun n hn => ?_
    rw [Function.comp_apply, TypeName.rename_eq, TypeName.rename_eq, TypeName.rename_eq,
      TypeName.name, TypeName.arguments, List.map_map, Function.comp_apply]
    congr 1
    exact List.map_congr_left fun t ht => ih n hn t ht

theorem rename_id (t : TypeRef) : t.rename id = t := by
  induction t using induction with
  | h names arrays ih =>
    rw [rename_mk]
    congr 1
    refine (List.map_congr_left fun n hn => ?_).trans (List.map_id names)
    rw [TypeName.rename_eq, (List.map_congr_left (ih n hn)).trans (List.map_id n.arguments)]
    cases n with
    | mk name arguments => rfl

/-- A renaming that keeps some names apart is undone by another one, on what mentions only those. -/
theorem exists_rename_rename_eq {f : String → String} {names : Set String}
    (hf : Set.InjOn f names) : ∃ g, ∀ t : TypeRef, (∀ a ∈ t.mentions, a ∈ names) →
      (t.rename f).rename g = t := by
  refine ⟨Function.invFunOn f names, fun t ht => ?_⟩
  calc (t.rename f).rename (Function.invFunOn f names)
    _ = t.rename (Function.invFunOn f names ∘ f) := rename_rename f _ t
    _ = t.rename id := rename_congr fun a ha => hf.leftInvOn_invFunOn (ht a ha)
    _ = t := rename_id t

end TypeRef

end ApiDocs
