import ApiDocs.Proofs.Grammar.Derivation

/-!
# Arguments read with other names

The names that an argument spells are left as they are and its references are replaced.  So what is
read with the names of one scope becomes, when those names are replaced, what is read with the names
of another.

* `ArgumentTree.rename_read`: that fact;
* `Grammar.DerivesArgument.spells`: what an argument spells is the text of one of its tokens.
-/

namespace ApiDocs

mutual
/-- The names that an argument spells at every depth. -/
def ArgumentTree.names : ArgumentTree → List String
  | .reference _ _ _ => []
  | .path names _ => NameTree.namesAll names
/-- The names that several arguments spell. -/
def ArgumentTree.namesAll : List ArgumentTree → List String
  | [] => []
  | a :: more => a.names ++ ArgumentTree.namesAll more
/-- A name and the names that its arguments spell. -/
def NameTree.names : NameTree → List String
  | .mk name arguments => name :: ArgumentTree.namesAll arguments
/-- Several names and the names that their arguments spell. -/
def NameTree.namesAll : List NameTree → List String
  | [] => []
  | n :: more => n.names ++ NameTree.namesAll more
end

/-! ## Names and tokens -/

namespace Grammar

/-- Some token is a name and has this text. -/
def Spells (ts : List Token) (name : String) : Prop := ∃ t ∈ ts, t.kind = .name ∧ t.text = name

theorem Spells.mono {ts us : List Token} {name : String} (h : Spells ts name) (hsub : ts ⊆ us) :
    Spells us name := by
  obtain ⟨t, ht, hname⟩ := h
  exact ⟨t, hsub ht, hname⟩

mutual
/-- What a derived argument spells is the text of one of its tokens. -/
theorem DerivesArgument.spells {a : ArgumentTree} {ts : List Token} (h : DerivesArgument a ts) :
    ∀ name ∈ a.names, Spells ts name := by
  match h with
  | .reference _ _ _ => exact nofun
  | .path hnames _ =>
    intro name hname
    exact (hnames.spells name hname).mono (List.subset_append_left _ _)

theorem DerivesTypePath.spells {trees : List NameTree} {ts : List Token}
    (h : DerivesTypePath trees ts) : ∀ name ∈ NameTree.namesAll trees, Spells ts name := by
  intro name hname
  match h with
  | .single hn =>
    rw [NameTree.namesAll, NameTree.namesAll, List.append_nil] at hname
    exact hn.spells name hname
  | .cons hn _ hmore =>
    rw [NameTree.namesAll] at hname
    rcases List.mem_append.mp hname with hname | hname
    · exact (hn.spells name hname).mono (List.subset_append_left _ _)
    · exact (hmore.spells name hname).mono
        (List.subset_append_of_subset_right _ (List.subset_cons_self _ _))

theorem DerivesTypeName.spells {tree : NameTree} {ts : List Token} (h : DerivesTypeName tree ts) :
    ∀ name ∈ tree.names, Spells ts name := by
  intro name hname
  match h with
  | @DerivesTypeName.plain t ht =>
    rw [NameTree.names, ArgumentTree.namesAll] at hname
    exact ⟨t, List.mem_singleton_self t, ht, (List.mem_singleton.mp hname).symm⟩
  | @DerivesTypeName.generic t l r arguments ts ht _ hargs _ =>
    rw [NameTree.names] at hname
    rcases List.mem_cons.mp hname with rfl | hname
    · exact ⟨t, List.mem_cons_self, ht, rfl⟩
    · refine (hargs.spells name hname).mono fun t' ht' => ?_
      exact List.mem_append_left _ (List.mem_cons_of_mem _ (List.mem_cons_of_mem _ ht'))

theorem DerivesGenericArguments.spells {trees : List ArgumentTree} {ts : List Token}
    (h : DerivesGenericArguments trees ts) :
    ∀ name ∈ ArgumentTree.namesAll trees, Spells ts name := by
  intro name hname
  match h with
  | .single ha =>
    rw [ArgumentTree.namesAll, ArgumentTree.namesAll, List.append_nil] at hname
    exact ha.spells name hname
  | .cons ha _ hmore =>
    rw [ArgumentTree.namesAll] at hname
    rcases List.mem_append.mp hname with hname | hname
    · exact (ha.spells name hname).mono (List.subset_append_left _ _)
    · exact (hmore.spells name hname).mono
        (List.subset_append_of_subset_right _ (List.subset_cons_self _ _))
end

end Grammar

/-! ## Replacing the names of a scope -/

/-- The name that a reference means in a scope. -/
def Scope.meaning (scope : Scope) (r : Mark × Numeral) : String :=
  (scope.names r.1)[r.2.value]?.getD ""

/-- The scope with its names replaced. -/
def Scope.map (f : String → String) (scope : Scope) : Scope :=
  ⟨scope.ofType.map f, scope.ofMethod.map f⟩

theorem Scope.names_map (f : String → String) (scope : Scope) (mark : Mark) :
    (scope.map f).names mark = (scope.names mark).map f := by
  cases mark <;> rfl

theorem Scope.meaning_map (f : String → String) {scope : Scope} {r : Mark × Numeral}
    (h : r.2.value < (scope.names r.1).length) :
    (scope.map f).meaning r = f (scope.meaning r) := by
  rw [meaning, meaning, names_map, List.getElem?_map, List.getElem?_eq_getElem h]
  rfl

theorem Scope.meaning_mem {scope : Scope} {r : Mark × Numeral}
    (h : r.2.value < (scope.names r.1).length) : scope.meaning r ∈ scope.names r.1 := by
  rw [meaning, List.getElem?_eq_getElem h, Option.getD_some]
  exact List.getElem_mem h

theorem Scope.Resolves.map {scope : Scope} {rs : List (Mark × Numeral)} (h : scope.Resolves rs)
    (f : String → String) : (scope.map f).Resolves rs := by
  intro r hr
  rw [names_map, List.length_map]
  exact h r hr

section
variable (f : String → String) (scope scope' : Scope)

mutual
/-- What is read with one scope becomes what is read with another, when what each reference means
becomes what it means in the other and what is spelled stays. -/
theorem ArgumentTree.rename_read (a : ArgumentTree)
    (hrefs : ∀ r ∈ a.references, f (scope.meaning r) = scope'.meaning r)
    (hnames : ∀ name ∈ a.names, f name = name) : (a.read scope).rename f = a.read scope' := by
  match a with
  | .reference mark index arrays =>
    have hmeaning : f (scope.meaning (mark, index)) = scope'.meaning (mark, index) :=
      hrefs _ (List.mem_singleton_self _)
    rw [Scope.meaning, Scope.meaning] at hmeaning
    simp only [ArgumentTree.read, TypeRef.rename, TypeName.renameAll, TypeName.rename,
      TypeRef.renameAll, hmeaning]
  | .path names arrays =>
    rw [ArgumentTree.read, TypeRef.rename, NameTree.renameAll_readAll names hrefs hnames,
      ArgumentTree.read]

theorem ArgumentTree.renameAll_readAll (as : List ArgumentTree)
    (hrefs : ∀ r ∈ ArgumentTree.referencesAll as, f (scope.meaning r) = scope'.meaning r)
    (hnames : ∀ name ∈ ArgumentTree.namesAll as, f name = name) :
    TypeRef.renameAll f (ArgumentTree.readAll scope as) = ArgumentTree.readAll scope' as := by
  match as with
  | [] => rw [ArgumentTree.readAll, TypeRef.renameAll, ArgumentTree.readAll]
  | a :: as =>
    rw [ArgumentTree.referencesAll, List.forall_mem_append] at hrefs
    rw [ArgumentTree.namesAll, List.forall_mem_append] at hnames
    rw [ArgumentTree.readAll, TypeRef.renameAll, a.rename_read hrefs.1 hnames.1,
      ArgumentTree.renameAll_readAll as hrefs.2 hnames.2, ArgumentTree.readAll]

theorem NameTree.rename_read (n : NameTree)
    (hrefs : ∀ r ∈ n.references, f (scope.meaning r) = scope'.meaning r)
    (hnames : ∀ name ∈ n.names, f name = name) : (n.read scope).rename f = n.read scope' := by
  match n with
  | .mk name arguments =>
    rw [NameTree.names, List.forall_mem_cons] at hnames
    rw [NameTree.read, TypeName.rename, hnames.1,
      ArgumentTree.renameAll_readAll arguments hrefs hnames.2, NameTree.read]

theorem NameTree.renameAll_readAll (ns : List NameTree)
    (hrefs : ∀ r ∈ NameTree.referencesAll ns, f (scope.meaning r) = scope'.meaning r)
    (hnames : ∀ name ∈ NameTree.namesAll ns, f name = name) :
    TypeName.renameAll f (NameTree.readAll scope ns) = NameTree.readAll scope' ns := by
  match ns with
  | [] => rw [NameTree.readAll, TypeName.renameAll, NameTree.readAll]
  | n :: ns =>
    rw [NameTree.referencesAll, List.forall_mem_append] at hrefs
    rw [NameTree.namesAll, List.forall_mem_append] at hnames
    rw [NameTree.readAll, TypeName.renameAll, n.rename_read hrefs.1 hnames.1,
      NameTree.renameAll_readAll ns hrefs.2 hnames.2, NameTree.readAll]
end

end

end ApiDocs
