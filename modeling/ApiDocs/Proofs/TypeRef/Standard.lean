import ApiDocs.Proofs.TypeRef.Rename

/-!
# Types in standard form

An array suffix with one dimension and one without any are written in the same way.  The standard form
of a reference has one dimension where there are none, and with it the same text.

* `TypeRef.standard`: the standard form, which a renaming respects and which mentions the same names;
* `TypeRef.text_standard`: the text of the standard form;
* `TypeRef.Built`: a reference with a name on every path, all with some property.
-/

namespace ApiDocs

mutual
/-- The reference with one dimension for every array suffix that has none. -/
def TypeRef.standard : TypeRef → TypeRef
  | .mk names arrays => .mk (TypeName.standardAll names) (arrays.map (max · 1))
/-- Several references in standard form. -/
def TypeRef.standardAll : List TypeRef → List TypeRef
  | [] => []
  | t :: ts => t.standard :: TypeRef.standardAll ts
/-- A name with its arguments in standard form. -/
def TypeName.standard : TypeName → TypeName
  | .mk name arguments => .mk name (TypeRef.standardAll arguments)
/-- Several names with their arguments in standard form. -/
def TypeName.standardAll : List TypeName → List TypeName
  | [] => []
  | n :: ns => n.standard :: TypeName.standardAll ns
end

theorem TypeRef.standardAll_eq_map (ts : List TypeRef) :
    TypeRef.standardAll ts = ts.map TypeRef.standard := by
  induction ts with
  | nil => rfl
  | cons t ts ih => rw [TypeRef.standardAll, ih, List.map_cons]

theorem TypeName.standardAll_eq_map (ns : List TypeName) :
    TypeName.standardAll ns = ns.map TypeName.standard := by
  induction ns with
  | nil => rfl
  | cons n ns ih => rw [TypeName.standardAll, ih, List.map_cons]

theorem TypeName.standard_eq (n : TypeName) :
    n.standard = .mk n.name (n.arguments.map TypeRef.standard) := by
  cases n with
  | mk name arguments => rw [standard, TypeRef.standardAll_eq_map, TypeName.name, TypeName.arguments]

theorem TypeName.text_eq (n : TypeName) : n.text = n.name ++ angled (n.arguments.map TypeRef.text) := by
  cases n with
  | mk name arguments => rw [text, TypeRef.texts_eq_map, TypeName.name, TypeName.arguments]

namespace TypeRef

theorem standard_mk (names : List TypeName) (arrays : List Int) :
    (mk names arrays).standard = mk (names.map TypeName.standard) (arrays.map (max · 1)) := by
  rw [standard, TypeName.standardAll_eq_map]

theorem text_mk (names : List TypeName) (arrays : List Int) :
    (mk names arrays).text =
      ".".intercalate (names.map TypeName.text) ++ String.join (arrays.map arrayText) := by
  rw [text, TypeName.texts_eq_map]

/-- The standard form has the same text. -/
theorem text_standard (t : TypeRef) : t.standard.text = t.text := by
  induction t using induction with
  | h names arrays ih =>
    have hnames : (names.map TypeName.standard).map TypeName.text = names.map TypeName.text := by
      rw [List.map_map]
      refine List.map_congr_left fun n hn => ?_
      rw [Function.comp_apply, TypeName.text_eq, TypeName.standard_eq, TypeName.text_eq,
        TypeName.name, TypeName.arguments, List.map_map]
      congr 2
      exact List.map_congr_left (ih n hn)
    have harrays : (arrays.map (max · 1)).map arrayText = arrays.map arrayText := by
      rw [List.map_map]
      refine List.map_congr_left fun n _ => ?_
      have hcommas : (max n 1 - 1).toNat = (n - 1).toNat := by omega
      rw [Function.comp_apply, arrayText, hcommas, arrayText]
    rw [standard_mk, text_mk, text_mk, hnames, harrays]

theorem standard_rename (f : String → String) (t : TypeRef) :
    (t.rename f).standard = t.standard.rename f := by
  induction t using induction with
  | h names arrays ih =>
    rw [rename_mk, standard_mk, standard_mk, rename_mk, List.map_map, List.map_map]
    congr 1
    refine List.map_congr_left fun n hn => ?_
    rw [Function.comp_apply, Function.comp_apply, TypeName.rename_eq, TypeName.standard_eq,
      TypeName.standard_eq, TypeName.rename_eq]
    simp only [TypeName.name, TypeName.arguments, List.map_map]
    congr 1
    exact List.map_congr_left (ih n hn)

theorem mentions_standard (t : TypeRef) : t.standard.mentions = t.mentions := by
  induction t using induction with
  | h names arrays ih =>
    rw [standard_mk, mentions_mk, mentions_mk, List.flatMap_map]
    refine List.flatMap_congr fun n hn => ?_
    rw [TypeName.standard_eq, TypeName.mentions_eq, TypeName.mentions_eq, TypeName.name,
      TypeName.arguments, List.flatMap_map]
    congr 1
    exact List.flatMap_congr (ih n hn)

/-! ## The names of a reference -/

/-- Every path of the reference has a name, and all names have a property. -/
inductive Built (P : String → Prop) : TypeRef → Prop
  | mk {names : List TypeName} {arrays : List Int} : names ≠ [] → (∀ n ∈ names, P n.name) →
      (∀ n ∈ names, ∀ t ∈ n.arguments, Built P t) → Built P (mk names arrays)

theorem Built.rename {P Q : String → Prop} {f : String → String} (hf : ∀ a, P a → Q (f a))
    {t : TypeRef} (h : t.Built P) : (t.rename f).Built Q := by
  induction h with
  | @mk names arrays hne hnames _ ih =>
    rw [rename_mk]
    refine .mk (mt List.map_eq_nil_iff.mp hne) ?_ ?_
    · rw [List.forall_mem_map]
      intro n hn
      rw [TypeName.rename_eq]
      exact hf _ (hnames n hn)
    · rw [List.forall_mem_map]
      intro n hn
      rw [TypeName.rename_eq, TypeName.arguments, List.forall_mem_map]
      exact ih n hn

theorem Built.mono {P Q : String → Prop} (hPQ : ∀ a, P a → Q a) {t : TypeRef} (h : t.Built P) :
    t.Built Q := by
  have hrename := h.rename (f := id) hPQ
  rwa [rename_id] at hrename

end TypeRef

end ApiDocs
