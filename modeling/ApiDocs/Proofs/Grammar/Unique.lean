import ApiDocs.Proofs.Grammar.Complete

/-!
# One derivation

Two derivations from one production that begin at the same tokens end at the same one and have the
same tree, if neither can be carried on by the token behind it.  What is read without looking at
numbers is unique because the parser reads it; the others are compared constructor by constructor.

* `Grammar.DerivesIdentifier.unique`: the tokens of a member id have one tree.
-/

namespace ApiDocs.Grammar

variable {rest rest' : List Token}

/-! ## The next token -/

theorem notNext_of_kind {kinds : List TokenKind} {kind : TokenKind} {t : Token} {ts : List Token}
    (hk : t.kind = kind) (hnot : kind ∉ kinds) : NotNext kinds (t :: ts) := by
  rw [notNext_cons, hk]
  exact hnot

theorem not_notNext_of_kind {kinds : List TokenKind} {kind : TokenKind} {t : Token}
    {ts : List Token} (hk : t.kind = kind) (hmem : kind ∈ kinds) : ¬ NotNext kinds (t :: ts) := by
  rw [notNext_cons, hk]
  exact fun h => h hmem

theorem not_notNext_of_mark {mark : Mark} {t : Token} {ts : List Token}
    (hm : t.kind.mark? = some mark) : ¬ NotNext [.backtick, .doubleBacktick] (t :: ts) := by
  rw [notNext_cons]
  intro hnot
  cases hk : t.kind <;> simp_all [TokenKind.mark?]

/-- A production reads one thing off the same tokens. -/
theorem read_unique {α : Type} {p : List Token → α × List Token → Prop}
    {f : (ts : List Token) → Except ParseFault { r : α × List Token // p ts r }}
    {ts ts' : List Token} {r r' : α × List Token} {hr hr'} (h : f ts = .ok ⟨r, hr⟩)
    (h' : f ts' = .ok ⟨r', hr'⟩) (heq : ts = ts') : r = r' := by
  subst heq
  rw [h] at h'
  cases h'
  rfl

/-! ## Paths -/

theorem DerivesSegmentName.unique {name name' : SegmentName} {us us' : List Token}
    (h : DerivesSegmentName name us) (h' : DerivesSegmentName name' us')
    (heq : us ++ rest = us' ++ rest') (hrest : NotNext [.sharp] rest)
    (hrest' : NotNext [.sharp] rest') : name = name' ∧ rest = rest' := by
  obtain ⟨hlt, hread⟩ := segmentName_of_derives h hrest
  obtain ⟨hlt', hread'⟩ := segmentName_of_derives h' hrest'
  exact Prod.mk.inj (read_unique hread hread' heq)

theorem DerivesArity.unique {g g' : Option (Mark × Numeral)} {us us' : List Token}
    (h : DerivesArity g us) (h' : DerivesArity g' us') (heq : us ++ rest = us' ++ rest')
    (hrest : NotNext [.backtick, .doubleBacktick] rest)
    (hrest' : NotNext [.backtick, .doubleBacktick] rest') : g = g' ∧ rest = rest' := by
  cases h with
  | none =>
    cases h' with
    | none => exact ⟨rfl, heq⟩
    | some hm _ =>
      subst heq
      exact absurd hrest (not_notNext_of_mark hm)
  | some hm hk =>
    cases h' with
    | none =>
      subst heq
      exact absurd hrest' (not_notNext_of_mark hm)
    | some hm' _ =>
      simp only [List.cons_append, List.nil_append, List.cons.injEq] at heq
      obtain ⟨rfl, rfl, rfl⟩ := heq
      rw [hm] at hm'
      cases hm'
      exact ⟨rfl, rfl⟩

theorem DerivesSegment.unique {s s' : SegmentTree} {us us' : List Token}
    (h : DerivesSegment s us) (h' : DerivesSegment s' us') (heq : us ++ rest = us' ++ rest')
    (hrest : NotNext segmentGoesOn rest) (hrest' : NotNext segmentGoesOn rest') :
    s = s' ∧ rest = rest' := by
  obtain ⟨hname, harity⟩ := h
  obtain ⟨hname', harity'⟩ := h'
  rw [List.append_assoc, List.append_assoc] at heq
  have hnext := notNext_of_derivesArity harity (hrest.mono [.sharp] (by decide)) (by decide)
  have hnext' := notNext_of_derivesArity harity' (hrest'.mono [.sharp] (by decide)) (by decide)
  obtain ⟨rfl, heq'⟩ := hname.unique hname' heq hnext hnext'
  obtain ⟨rfl, rfl⟩ := harity.unique harity' heq' (hrest.mono _ (by decide))
    (hrest'.mono _ (by decide))
  exact ⟨rfl, rfl⟩

theorem DerivesPath.unique {outer outer' : List SegmentTree} {last last' : SegmentTree}
    {us us' : List Token} (h : DerivesPath outer last us) (h' : DerivesPath outer' last' us')
    (heq : us ++ rest = us' ++ rest') (hrest : NotNext (.period :: segmentGoesOn) rest)
    (hrest' : NotNext (.period :: segmentGoesOn) rest') :
    (outer = outer' ∧ last = last') ∧ rest = rest' := by
  induction h generalizing outer' us' with
  | single hs =>
    cases h' with
    | single hs' =>
      obtain ⟨rfl, rfl⟩ := hs.unique hs' heq (hrest.mono _ (by decide)) (hrest'.mono _ (by decide))
      exact ⟨⟨rfl, rfl⟩, rfl⟩
    | cons hs' hperiod _ =>
      rw [List.append_assoc, List.cons_append] at heq
      obtain ⟨-, rfl⟩ := hs.unique hs' heq (hrest.mono _ (by decide))
        (notNext_of_kind hperiod (by decide))
      exact absurd hrest (not_notNext_of_kind hperiod (by decide))
  | cons hs hperiod _ ih =>
    rw [List.append_assoc, List.cons_append] at heq
    cases h' with
    | single hs' =>
      obtain ⟨-, rfl⟩ := hs.unique hs' heq (notNext_of_kind hperiod (by decide))
        (hrest'.mono _ (by decide))
      exact absurd hrest' (not_notNext_of_kind hperiod (by decide))
    | cons hs' hperiod' hmore' =>
      rw [List.append_assoc, List.cons_append] at heq
      obtain ⟨rfl, heq'⟩ := hs.unique hs' heq (notNext_of_kind hperiod (by decide))
        (notNext_of_kind hperiod' (by decide))
      obtain ⟨⟨rfl, rfl⟩, rfl⟩ := ih hmore' (List.cons.inj heq').2
      exact ⟨⟨rfl, rfl⟩, rfl⟩

/-! ## Arguments -/

theorem DerivesArrays.unique {ns ns' : List Nat} {us us' : List Token}
    (h : DerivesArrays ns us) (h' : DerivesArrays ns' us') (heq : us ++ rest = us' ++ rest')
    (hrest : NotNext [.leftBracket] rest) (hrest' : NotNext [.leftBracket] rest') :
    ns = ns' ∧ rest = rest' := by
  obtain ⟨hle, hread⟩ := arrays_of_derives h hrest
  obtain ⟨hle', hread'⟩ := arrays_of_derives h' hrest'
  obtain ⟨hns, hleft⟩ := Prod.mk.inj (read_unique hread hread' heq)
  exact ⟨(List.map_inj_right fun _ _ => Int.ofNat_inj.mp).mp hns, hleft⟩

theorem mark?_eq_none_of_derivesTypePath {trees : List NameTree} {us : List Token}
    (h : DerivesTypePath trees us) : ∃ t us', us = t :: us' ∧ t.kind.mark? = none := by
  obtain ⟨t, us', rfl, ht⟩ := head_of_derivesTypePath h
  exact ⟨t, us', rfl, by rw [ht]; rfl⟩

mutual
theorem DerivesArgument.unique {a a' : ArgumentTree} {us us' rest rest' : List Token}
    (h : DerivesArgument a us) (h' : DerivesArgument a' us') (heq : us ++ rest = us' ++ rest')
    (hrest : NotNext argumentGoesOn rest) (hrest' : NotNext argumentGoesOn rest') :
    a = a' ∧ rest = rest' := by
  match h, h' with
  | .reference hm hk hns, .reference hm' hk' hns' =>
    simp only [List.cons_append, List.cons.injEq] at heq
    obtain ⟨rfl, rfl, heq'⟩ := heq
    obtain ⟨rfl, rfl⟩ := hns.unique hns' heq' (hrest.mono _ (by decide)) (hrest'.mono _ (by decide))
    rw [hm] at hm'
    cases hm'
    exact ⟨rfl, rfl⟩
  | .reference hm hk hns, .path hnames' hns' =>
    obtain ⟨t, ts, rfl, ht⟩ := mark?_eq_none_of_derivesTypePath hnames'
    obtain ⟨rfl, -⟩ := List.cons.inj heq
    rw [hm] at ht
    cases ht
  | .path hnames hns, .reference hm' hk' hns' =>
    obtain ⟨t, ts, rfl, ht⟩ := mark?_eq_none_of_derivesTypePath hnames
    obtain ⟨rfl, -⟩ := List.cons.inj heq
    rw [hm'] at ht
    cases ht
  | .path hnames hns, .path hnames' hns' =>
    rw [List.append_assoc, List.append_assoc] at heq
    have hnext := notNext_of_derivesArrays hns
      (hrest.mono [.period, .leftBrace] (by decide)) (by decide)
    have hnext' := notNext_of_derivesArrays hns'
      (hrest'.mono [.period, .leftBrace] (by decide)) (by decide)
    obtain ⟨rfl, heq'⟩ := hnames.unique hnames' heq hnext hnext'
    obtain ⟨rfl, rfl⟩ := hns.unique hns' heq' (hrest.mono _ (by decide)) (hrest'.mono _ (by decide))
    exact ⟨rfl, rfl⟩

theorem DerivesTypePath.unique {trees trees' : List NameTree} {us us' rest rest' : List Token}
    (h : DerivesTypePath trees us) (h' : DerivesTypePath trees' us')
    (heq : us ++ rest = us' ++ rest') (hrest : NotNext [.period, .leftBrace] rest)
    (hrest' : NotNext [.period, .leftBrace] rest') : trees = trees' ∧ rest = rest' := by
  match h, h' with
  | .single hn, .single hn' =>
    obtain ⟨rfl, rfl⟩ := hn.unique hn' heq (hrest.mono _ (by decide)) (hrest'.mono _ (by decide))
    exact ⟨rfl, rfl⟩
  | .single hn, .cons hn' hperiod' hmore' =>
    rw [List.append_assoc, List.cons_append] at heq
    obtain ⟨-, rfl⟩ := hn.unique hn' heq (hrest.mono _ (by decide))
      (notNext_of_kind hperiod' (by decide))
    exact absurd hrest (not_notNext_of_kind hperiod' (by decide))
  | .cons hn hperiod hmore, .single hn' =>
    rw [List.append_assoc, List.cons_append] at heq
    obtain ⟨-, rfl⟩ := hn.unique hn' heq (notNext_of_kind hperiod (by decide))
      (hrest'.mono _ (by decide))
    exact absurd hrest' (not_notNext_of_kind hperiod (by decide))
  | .cons hn hperiod hmore, .cons hn' hperiod' hmore' =>
    simp only [List.append_assoc, List.cons_append] at heq
    obtain ⟨rfl, heq'⟩ := hn.unique hn' heq (notNext_of_kind hperiod (by decide))
      (notNext_of_kind hperiod' (by decide))
    obtain ⟨rfl, rfl⟩ := hmore.unique hmore' (List.cons.inj heq').2 hrest hrest'
    exact ⟨rfl, rfl⟩

theorem DerivesTypeName.unique {tree tree' : NameTree} {us us' rest rest' : List Token}
    (h : DerivesTypeName tree us) (h' : DerivesTypeName tree' us')
    (heq : us ++ rest = us' ++ rest') (hrest : NotNext [.leftBrace] rest)
    (hrest' : NotNext [.leftBrace] rest') : tree = tree' ∧ rest = rest' := by
  match h, h' with
  | .plain _, .plain _ =>
    obtain ⟨rfl, rfl⟩ := List.cons.inj heq
    exact ⟨rfl, rfl⟩
  | .plain _, .generic _ hl' _ _ =>
    obtain ⟨-, rfl⟩ := List.cons.inj heq
    exact absurd hrest (not_notNext_of_kind hl' (by decide))
  | .generic _ hl _ _, .plain _ =>
    obtain ⟨-, rfl⟩ := List.cons.inj heq
    exact absurd hrest' (not_notNext_of_kind hl (by decide))
  | .generic _ _ hargs hr, .generic _ _ hargs' hr' =>
    simp only [List.cons_append, List.append_assoc, List.nil_append, List.cons.injEq] at heq
    obtain ⟨rfl, rfl, heq'⟩ := heq
    obtain ⟨rfl, hright⟩ := hargs.unique hargs' heq' (notNext_of_kind hr (by decide))
      (notNext_of_kind hr' (by decide))
    obtain ⟨-, rfl⟩ := List.cons.inj hright
    exact ⟨rfl, rfl⟩

theorem DerivesGenericArguments.unique {trees trees' : List ArgumentTree}
    {us us' rest rest' : List Token} (h : DerivesGenericArguments trees us)
    (h' : DerivesGenericArguments trees' us') (heq : us ++ rest = us' ++ rest')
    (hrest : NotNext (.comma :: argumentGoesOn) rest)
    (hrest' : NotNext (.comma :: argumentGoesOn) rest') : trees = trees' ∧ rest = rest' := by
  match h, h' with
  | .single ha, .single ha' =>
    obtain ⟨rfl, rfl⟩ := ha.unique ha' heq (hrest.mono _ (by decide)) (hrest'.mono _ (by decide))
    exact ⟨rfl, rfl⟩
  | .single ha, .cons ha' hcomma' hmore' =>
    rw [List.append_assoc, List.cons_append] at heq
    obtain ⟨-, rfl⟩ := ha.unique ha' heq (hrest.mono _ (by decide))
      (notNext_of_kind hcomma' (by decide))
    exact absurd hrest (not_notNext_of_kind hcomma' (by decide))
  | .cons ha hcomma hmore, .single ha' =>
    rw [List.append_assoc, List.cons_append] at heq
    obtain ⟨-, rfl⟩ := ha.unique ha' heq (notNext_of_kind hcomma (by decide))
      (hrest'.mono _ (by decide))
    exact absurd hrest' (not_notNext_of_kind hcomma (by decide))
  | .cons ha hcomma hmore, .cons ha' hcomma' hmore' =>
    simp only [List.append_assoc, List.cons_append] at heq
    obtain ⟨rfl, heq'⟩ := ha.unique ha' heq (notNext_of_kind hcomma (by decide))
      (notNext_of_kind hcomma' (by decide))
    obtain ⟨rfl, rfl⟩ := hmore.unique hmore' (List.cons.inj heq').2 hrest hrest'
    exact ⟨rfl, rfl⟩
end

/-! ## Parameters -/

theorem DerivesParameter.unique {p p' : ParameterTree} {us us' : List Token}
    (h : DerivesParameter p us) (h' : DerivesParameter p' us') (heq : us ++ rest = us' ++ rest')
    (hrest : NotNext parameterGoesOn rest) (hrest' : NotNext parameterGoesOn rest') :
    p = p' ∧ rest = rest' := by
  cases h with
  | plain ha =>
    cases h' with
    | plain ha' =>
      obtain ⟨rfl, rfl⟩ := ha.unique ha' heq (hrest.mono _ (by decide)) (hrest'.mono _ (by decide))
      exact ⟨rfl, rfl⟩
    | out ha' hsign' =>
      rw [List.append_assoc, List.singleton_append] at heq
      obtain ⟨-, rfl⟩ := ha.unique ha' heq (hrest.mono _ (by decide))
        (notNext_of_kind hsign' (by decide))
      exact absurd hrest (not_notNext_of_kind hsign' (by decide))
  | out ha hsign =>
    rw [List.append_assoc, List.singleton_append] at heq
    cases h' with
    | plain ha' =>
      obtain ⟨-, rfl⟩ := ha.unique ha' heq (notNext_of_kind hsign (by decide))
        (hrest'.mono _ (by decide))
      exact absurd hrest' (not_notNext_of_kind hsign (by decide))
    | out ha' hsign' =>
      rw [List.append_assoc, List.singleton_append] at heq
      obtain ⟨rfl, heq'⟩ := ha.unique ha' heq (notNext_of_kind hsign (by decide))
        (notNext_of_kind hsign' (by decide))
      exact ⟨rfl, (List.cons.inj heq').2⟩

theorem DerivesParameterList.unique {ps ps' : List ParameterTree} {us us' : List Token}
    (h : DerivesParameterList ps us) (h' : DerivesParameterList ps' us')
    (heq : us ++ rest = us' ++ rest') (hrest : NotNext (.comma :: parameterGoesOn) rest)
    (hrest' : NotNext (.comma :: parameterGoesOn) rest') : ps = ps' ∧ rest = rest' := by
  induction h generalizing ps' us' with
  | single hp =>
    cases h' with
    | single hp' =>
      obtain ⟨rfl, rfl⟩ := hp.unique hp' heq (hrest.mono _ (by decide)) (hrest'.mono _ (by decide))
      exact ⟨rfl, rfl⟩
    | cons hp' hcomma' _ =>
      rw [List.append_assoc, List.cons_append] at heq
      obtain ⟨-, rfl⟩ := hp.unique hp' heq (hrest.mono _ (by decide))
        (notNext_of_kind hcomma' (by decide))
      exact absurd hrest (not_notNext_of_kind hcomma' (by decide))
  | cons hp hcomma _ ih =>
    rw [List.append_assoc, List.cons_append] at heq
    cases h' with
    | single hp' =>
      obtain ⟨-, rfl⟩ := hp.unique hp' heq (notNext_of_kind hcomma (by decide))
        (hrest'.mono _ (by decide))
      exact absurd hrest' (not_notNext_of_kind hcomma (by decide))
    | cons hp' hcomma' hmore' =>
      rw [List.append_assoc, List.cons_append] at heq
      obtain ⟨rfl, heq'⟩ := hp.unique hp' heq (notNext_of_kind hcomma (by decide))
        (notNext_of_kind hcomma' (by decide))
      obtain ⟨rfl, rfl⟩ := ih hmore' (List.cons.inj heq').2
      exact ⟨rfl, rfl⟩

theorem DerivesParameters.unique {ps ps' : Option (List ParameterTree)} {us : List Token}
    (h : DerivesParameters ps us) (h' : DerivesParameters ps' us) : ps = ps' := by
  cases h with
  | none =>
    cases h' with
    | none => rfl
  | @empty l r hl hr =>
    generalize hus : [l, r] = us at h'
    cases h' with
    | none => cases hus
    | empty => rfl
    | list _ hps' _ =>
      obtain ⟨t, ts, rfl, ht⟩ := head_of_derivesParameterList hps'
      obtain ⟨rfl, -⟩ := List.cons.inj (List.cons.inj hus).2
      exact absurd hr ht
  | @list l r ps ts hl hps hr =>
    generalize hus : l :: ts ++ [r] = us at h'
    cases h' with
    | none => cases hus
    | empty _ hr' =>
      obtain ⟨t, ts, rfl, ht⟩ := head_of_derivesParameterList hps
      obtain ⟨rfl, -⟩ := List.cons.inj (List.cons.inj hus).2
      exact absurd hr' ht
    | list _ hps' hr' =>
      obtain ⟨rfl, -⟩ := hps.unique hps' (List.cons.inj hus).2 (notNext_of_kind hr (by decide))
        (notNext_of_kind hr' (by decide))
      rfl

theorem notNext_of_derivesParameters {ps : Option (List ParameterTree)} {us : List Token}
    {kinds : List TokenKind} (h : DerivesParameters ps us) (hrest : NotNext kinds rest)
    (hparen : .leftParen ∉ kinds) : NotNext kinds (us ++ rest) := by
  cases h with
  | none => exact hrest
  | empty hl _ => exact notNext_of_kind hl hparen
  | list hl _ _ => exact notNext_of_kind hl hparen

/-- Tokens are derived from `identifier` in one way at most. -/
theorem DerivesIdentifier.unique {tree tree' : IdentifierTree} {us : List Token}
    (h : DerivesIdentifier tree us) (h' : DerivesIdentifier tree' us) : tree = tree' := by
  obtain @⟨_, _, _, ts, us, hpath, hps⟩ := h
  generalize hus : ts ++ us = ws at h'
  obtain ⟨hpath', hps'⟩ := h'
  have hnext := notNext_of_derivesParameters hps (notNext_nil (.period :: segmentGoesOn)) (by decide)
  have hnext' := notNext_of_derivesParameters hps' (notNext_nil (.period :: segmentGoesOn)) (by decide)
  rw [List.append_nil] at hnext hnext'
  obtain ⟨⟨rfl, rfl⟩, rfl⟩ := hpath.unique hpath' hus hnext hnext'
  obtain rfl := hps.unique hps'
  rfl

end ApiDocs.Grammar
