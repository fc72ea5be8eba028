import ApiDocs.Proofs.Grammar.Identifier
import ApiDocs.Proofs.Grammar.Rename
import ApiDocs.Proofs.Text.Apart
import ApiDocs.Proofs.Token.Spelling
import ApiDocs.Proofs.TypeRef.Standard

/-!
# The names in types that are read

A type that is read from a text has a name on every path, at every depth.  The names are spelled by
tokens, and then they are words, or they are what references mean.

* `Token.isWord_text`: what a token for a name spells is a word;
* `Grammar.DerivesArgument.built`: the names of a type that is read off a derivation;
* `TypeRef.built_of_parse`, `Identifier.built_of_parse`: the names of what is read from a text.
-/

namespace ApiDocs

open Text

/-! ## Words -/

namespace Token

/-- What a token for a name spells is a word. -/
theorem isWord_text (start : Nat) (xs : List Symbol) :
    ∀ t ∈ scan start xs, t.kind = .name → IsWord t.text := by
  intro t ht hk
  have hend : t.kind ≠ .endOfInput := by
    rw [hk]
    decide
  obtain ⟨hcovers, hlexeme⟩ := covers_of_mem_scan ht hend (by rw [hk]; decide)
  rw [hk] at hcovers
  refine ⟨?_, hcovers.isNameRest⟩
  intro hempty
  obtain ⟨front, x, rest, kind, more, -, -, -, rfl⟩ :=
    exists_takes_of_mem_written start xs t (mem_written_of_mem_scan ht hend)
  rw [hempty] at hlexeme
  cases hlexeme

end Token

/-! ## Names in derivations -/

namespace Grammar

section
variable {P : String → Prop} {scope : Scope}

mutual
/-- The names of a type that is read off a derivation are those that it spells and those that its
references mean, and every path has some. -/
theorem DerivesArgument.built {a : ArgumentTree} {ts : List Token} (h : DerivesArgument a ts)
    (hnames : ∀ name ∈ a.names, P name) (hrefs : ∀ r ∈ a.references, P (scope.meaning r)) :
    (a.read scope).Built P := by
  match h with
  | @DerivesArgument.reference m number mark ns us hm hk harrays =>
    have hmeaning : P (scope.meaning (mark, number.numeral)) := hrefs _ (List.mem_singleton_self _)
    refine .mk (List.cons_ne_nil _ _) ?_ ?_
    · intro n hn
      rw [List.mem_singleton.mp hn]
      exact hmeaning
    · intro n hn t ht
      rw [List.mem_singleton.mp hn] at ht
      cases ht
  | @DerivesArgument.path names ns ts us hpath harrays =>
    obtain ⟨hne, hbuilt⟩ := hpath.built hnames hrefs
    exact .mk hne (fun n hn => (hbuilt n hn).1) fun n hn => (hbuilt n hn).2

theorem DerivesTypePath.built {trees : List NameTree} {ts : List Token}
    (h : DerivesTypePath trees ts) (hnames : ∀ name ∈ NameTree.namesAll trees, P name)
    (hrefs : ∀ r ∈ NameTree.referencesAll trees, P (scope.meaning r)) :
    NameTree.readAll scope trees ≠ [] ∧ ∀ n ∈ NameTree.readAll scope trees,
      P n.name ∧ ∀ t ∈ n.arguments, t.Built P := by
  match h with
  | .single hname =>
    rw [NameTree.namesAll, List.forall_mem_append] at hnames
    rw [NameTree.referencesAll, List.forall_mem_append] at hrefs
    refine ⟨List.cons_ne_nil _ _, ?_⟩
    intro n hn
    rw [NameTree.readAll, NameTree.readAll, List.mem_singleton] at hn
    rw [hn]
    exact hname.built hnames.1 hrefs.1
  | .cons hname _ hmore =>
    rw [NameTree.namesAll, List.forall_mem_append] at hnames
    rw [NameTree.referencesAll, List.forall_mem_append] at hrefs
    refine ⟨List.cons_ne_nil _ _, ?_⟩
    rw [NameTree.readAll, List.forall_mem_cons]
    exact ⟨hname.built hnames.1 hrefs.1, (hmore.built hnames.2 hrefs.2).2⟩

theorem DerivesTypeName.built {tree : NameTree} {ts : List Token} (h : DerivesTypeName tree ts)
    (hnames : ∀ name ∈ tree.names, P name) (hrefs : ∀ r ∈ tree.references, P (scope.meaning r)) :
    P (tree.read scope).name ∧ ∀ t ∈ (tree.read scope).arguments, t.Built P := by
  match h with
  | .plain _ =>
    rw [NameTree.names, List.forall_mem_cons] at hnames
    exact ⟨hnames.1, nofun⟩
  | .generic _ _ hargs _ =>
    rw [NameTree.names, List.forall_mem_cons] at hnames
    exact ⟨hnames.1, hargs.built hnames.2 hrefs⟩

theorem DerivesGenericArguments.built {trees : List ArgumentTree} {ts : List Token}
    (h : DerivesGenericArguments trees ts) (hnames : ∀ name ∈ ArgumentTree.namesAll trees, P name)
    (hrefs : ∀ r ∈ ArgumentTree.referencesAll trees, P (scope.meaning r)) :
    ∀ t ∈ ArgumentTree.readAll scope trees, t.Built P := by
  match h with
  | .single harg =>
    rw [ArgumentTree.namesAll, List.forall_mem_append] at hnames
    rw [ArgumentTree.referencesAll, List.forall_mem_append] at hrefs
    intro t ht
    rw [ArgumentTree.readAll, ArgumentTree.readAll, List.mem_singleton] at ht
    rw [ht]
    exact harg.built hnames.1 hrefs.1
  | .cons harg _ hmore =>
    rw [ArgumentTree.namesAll, List.forall_mem_append] at hnames
    rw [ArgumentTree.referencesAll, List.forall_mem_append] at hrefs
    rw [ArgumentTree.readAll, List.forall_mem_cons]
    exact ⟨harg.built hnames.1 hrefs.1, hmore.built hnames.2 hrefs.2⟩
end

end

theorem DerivesParameterList.exists_derivesArgument {ps : List ParameterTree} {ts : List Token}
    (h : DerivesParameterList ps ts) : ∀ p ∈ ps, ∃ us ⊆ ts, DerivesArgument p.argument us := by
  have hparameter : ∀ {p : ParameterTree} {ts : List Token}, DerivesParameter p ts →
      ∃ us ⊆ ts, DerivesArgument p.argument us := by
    intro p ts hp
    cases hp with
    | plain ha => exact ⟨ts, List.Subset.refl ts, ha⟩
    | out ha _ => exact ⟨_, List.subset_append_left _ _, ha⟩
  induction h with
  | single hp =>
    intro q hq
    rw [List.mem_singleton.mp hq]
    exact hparameter hp
  | cons hp _ _ ih =>
    rw [List.forall_mem_cons]
    refine ⟨?_, fun q hq => ?_⟩
    · obtain ⟨us, hus, ha⟩ := hparameter hp
      exact ⟨us, List.Subset.trans hus (List.subset_append_left _ _), ha⟩
    · obtain ⟨us, hus, ha⟩ := ih q hq
      exact ⟨us, List.Subset.trans hus (List.subset_append_of_subset_right _
        (List.subset_cons_self _ _)), ha⟩

theorem DerivesIdentifier.exists_derivesArgument {tree : IdentifierTree} {ts : List Token}
    (h : DerivesIdentifier tree ts) :
    ∀ p ∈ tree.parameterList, ∃ us ⊆ ts, DerivesArgument p.argument us := by
  obtain @⟨outer, last, ps, ts, us, -, hps⟩ := h
  cases hps with
  | none => exact nofun
  | empty => exact nofun
  | list _ hlist _ =>
    intro p hp
    obtain ⟨vs, hvs, ha⟩ := hlist.exists_derivesArgument p hp
    refine ⟨vs, List.Subset.trans hvs ?_, ha⟩
    exact List.subset_append_of_subset_right _
      (List.subset_append_of_subset_left _ (List.subset_cons_self _ _))

end Grammar

/-! ## Names in what is read -/

open PathSegment

theorem isWord_numberedName (n : Nat) : IsWord (numberedName n) := by
  have hchars : (numberedName n).toList = 'T' :: Nat.toDigits 10 n := by
    rw [numberedName, String.toList_append, Nat.toString_eq_repr, Nat.toList_repr]
    rfl
  refine ⟨?_, ?_⟩
  · rw [ne_eq, ← String.toList_eq_nil_iff, hchars]
    exact List.cons_ne_nil _ _
  · rw [hchars, List.forall_mem_cons]
    refine ⟨by decide, fun c hc => isNameRest_of_isDigit ?_⟩
    have hdigit := Nat.isDigit_of_mem_toDigits (by decide) (by decide) hc
    simpa [isDigit, Char.isDigit, Char.le_def] using hdigit

theorem isWord_of_mem_numbered {count arity : Nat} : ∀ a ∈ numbered count arity, IsWord a := by
  intro a ha
  obtain ⟨i, -, rfl⟩ := List.mem_map.mp ha
  exact isWord_numberedName _

theorem Scope.isWord_of_mem_declaredWith {mark : Mark} {count : Nat} {path : List PathSegment} :
    ∀ a ∈ Scope.declaredWith mark count path, IsWord a := by
  induction path generalizing count with
  | nil =>
    intro a ha
    cases ha
  | cons s path ih =>
    rw [Scope.declaredWith, List.forall_mem_append]
    refine ⟨?_, ih⟩
    split
    · rw [declared_eq_numbered]
      exact isWord_of_mem_numbered
    · intro a ha
      cases ha

open Grammar Token

theorem isWord_of_spells {text : String} {ts : List Token} (hts : ts ⊆ tokenize text) {name : String}
    (h : Spells ts name) : IsWord name := by
  obtain ⟨t, ht, hk, rfl⟩ := h
  exact isWord_text 0 _ t (hts ht) hk

/-- The names of a type that is read are words, or names that references may mean. -/
theorem TypeRef.built_of_parse {text : String} {scope : Scope} {t : TypeRef}
    (h : TypeRef.parse text scope = .ok t) :
    t.Built fun a => IsWord a ∨ ∃ mark, a ∈ scope.names mark := by
  rw [TypeRef.parse] at h
  split at h
  · cases h
  · next type rest hlt harg =>
    split at h
    · cases h
    · cases h
      obtain ⟨used, tree, hused, hd, rfl, hres⟩ := derives_of_argument scope _ harg
      refine hd.built (fun name hname => ?_) fun r hr => ?_
      · exact .inl (isWord_of_spells (hused ▸ List.subset_append_left _ _) (hd.spells name hname))
      · exact .inr ⟨r.1, Scope.meaning_mem (hres r hr).2⟩

/-- The names in the parameters of an identifier that is read are words. -/
theorem Identifier.built_of_parse {text : String} {isMethod : Bool} {x : Identifier}
    (h : Identifier.parse text isMethod = .ok x) : ∀ p ∈ x.parameters, p.type.Built IsWord := by
  obtain ⟨tree, hd, hread, hrange, rfl⟩ := Identifier.derives_of_parse h
  intro p hp
  obtain ⟨q, hq, rfl⟩ := List.mem_map.mp hp
  obtain ⟨us, hus, ha⟩ := hd.exists_derivesArgument q hq
  have hres := tree.resolves_references_iff.mpr ⟨(tree.numerals_isReadable_iff.mp hread).2, hrange⟩
  refine ha.built (fun name hname => ?_) fun r hr => ?_
  · exact isWord_of_spells (List.Subset.trans hus (List.dropLast_subset _)) (ha.spells name hname)
  · have hlt := (hres r (List.mem_flatMap.mpr ⟨q, hq, hr⟩)).2
    have hmem := Scope.meaning_mem hlt
    cases hr' : r.1 with
    | ofType =>
      rw [hr'] at hmem
      exact Scope.isWord_of_mem_declaredWith _ hmem
    | ofMethod =>
      rw [hr'] at hmem
      exact Scope.isWord_of_mem_declaredWith _ hmem

end ApiDocs
