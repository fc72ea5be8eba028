import ApiDocs.Proofs.Grammar.Derivation
import ApiDocs.Proofs.Token.Scan

/-!
# The tokens of a derivation

* `Grammar.DerivesIdentifier.isKnown`: a derivation spells no token of unknown kind;
* `Grammar.DerivesArgument.shift`: a derivation does not say where its tokens stand.
-/

namespace ApiDocs.Grammar

/-! ## Kinds -/

/-- No token is of unknown kind. -/
def IsKnown (ts : List Token) : Prop := ∀ t ∈ ts, t.kind ≠ .unknown

@[simp] theorem isKnown_nil : IsKnown [] := nofun

@[simp] theorem isKnown_cons {t : Token} {ts : List Token} :
    IsKnown (t :: ts) ↔ t.kind ≠ .unknown ∧ IsKnown ts :=
  List.forall_mem_cons

@[simp] theorem isKnown_append {ts us : List Token} :
    IsKnown (ts ++ us) ↔ IsKnown ts ∧ IsKnown us :=
  List.forall_mem_append

theorem ne_unknown_of_mark {k : TokenKind} {mark : Mark} (h : k.mark? = some mark) :
    k ≠ .unknown := by
  rintro rfl
  cases h

theorem DerivesHashedName.isKnown {names : List String} {ts : List Token}
    (h : DerivesHashedName names ts) : IsKnown ts := by
  induction h with
  | single ht => simp [ht]
  | cons ht hsharp _ ih => simp [ht, hsharp, ih]

theorem DerivesSegmentName.isKnown {name : SegmentName} {ts : List Token}
    (h : DerivesSegmentName name ts) : IsKnown ts := by
  cases h with
  | special hsharp ht => simp [hsharp, ht]
  | classSpecial hsharps ht => simp [hsharps, ht]
  | hashed hd => exact hd.isKnown

theorem DerivesArity.isKnown {g : Option (Mark × Numeral)} {ts : List Token}
    (h : DerivesArity g ts) : IsKnown ts := by
  cases h with
  | none => exact isKnown_nil
  | some hm hk => simp [ne_unknown_of_mark hm, hk]

theorem DerivesPath.isKnown {outer : List SegmentTree} {last : SegmentTree} {ts : List Token}
    (h : DerivesPath outer last ts) : IsKnown ts := by
  have hsegment : ∀ {s : SegmentTree} {us : List Token}, DerivesSegment s us → IsKnown us := by
    rintro s us ⟨hname, harity⟩
    exact isKnown_append.mpr ⟨hname.isKnown, harity.isKnown⟩
  induction h with
  | single hs => exact hsegment hs
  | cons hs hperiod _ ih => simp [hsegment hs, hperiod, ih]

theorem DerivesDimensions.isKnown {n : Nat} {ts : List Token} (h : DerivesDimensions n ts) :
    IsKnown ts := by
  induction h with
  | single hn hc => simp [hn, hc]
  | cons hn hc hcomma _ ih => simp [hn, hc, hcomma, ih]

theorem DerivesArrays.isKnown {ns : List Nat} {ts : List Token} (h : DerivesArrays ns ts) :
    IsKnown ts := by
  induction h with
  | nil => exact isKnown_nil
  | cons hn _ ih =>
    cases hn with
    | empty hl hr => simp [hl, hr, ih]
    | dimensions hl hd hr => simp [hl, hd.isKnown, hr, ih]

mutual
theorem DerivesArgument.isKnown {a : ArgumentTree} {ts : List Token} (h : DerivesArgument a ts) :
    IsKnown ts := by
  match h with
  | .reference hm hk hns => simp [ne_unknown_of_mark hm, hk, hns.isKnown]
  | .path hnames hns => exact isKnown_append.mpr ⟨hnames.isKnown, hns.isKnown⟩

theorem DerivesTypePath.isKnown {trees : List NameTree} {ts : List Token}
    (h : DerivesTypePath trees ts) : IsKnown ts := by
  match h with
  | .single hn => exact hn.isKnown
  | .cons hn hperiod hmore => simp [hn.isKnown, hperiod, hmore.isKnown]

theorem DerivesTypeName.isKnown {tree : NameTree} {ts : List Token} (h : DerivesTypeName tree ts) :
    IsKnown ts := by
  match h with
  | .plain ht => simp [ht]
  | .generic ht hl hargs hr => simp [ht, hl, hargs.isKnown, hr]

theorem DerivesGenericArguments.isKnown {trees : List ArgumentTree} {ts : List Token}
    (h : DerivesGenericArguments trees ts) : IsKnown ts := by
  match h with
  | .single ha => exact ha.isKnown
  | .cons ha hcomma hmore => simp [ha.isKnown, hcomma, hmore.isKnown]
end

theorem DerivesParameterList.isKnown {ps : List ParameterTree} {ts : List Token}
    (h : DerivesParameterList ps ts) : IsKnown ts := by
  have hparameter : ∀ {p : ParameterTree} {us : List Token}, DerivesParameter p us → IsKnown us := by
    intro p us hp
    cases hp with
    | plain ha => exact ha.isKnown
    | out ha hsign => simp [ha.isKnown, hsign]
  induction h with
  | single hp => exact hparameter hp
  | cons hp hcomma _ ih => simp [hparameter hp, hcomma, ih]

/-- A derivation spells no token of unknown kind. -/
theorem DerivesIdentifier.isKnown {tree : IdentifierTree} {ts : List Token}
    (h : DerivesIdentifier tree ts) : IsKnown ts := by
  obtain ⟨hpath, hps⟩ := h
  refine isKnown_append.mpr ⟨hpath.isKnown, ?_⟩
  cases hps with
  | none => exact isKnown_nil
  | empty hl hr => simp [hl, hr]
  | list hl hlist hr => simp [hl, hlist.isKnown, hr]

/-! ## Places -/

theorem DerivesDimensions.shift {n : Nat} {ts : List Token} (h : DerivesDimensions n ts) (d : Nat) :
    DerivesDimensions n (ts.map (Token.shift d)) := by
  induction h with
  | single hn hc => exact .single hn hc
  | cons hn hc hcomma _ ih => exact .cons hn hc hcomma ih

theorem DerivesArrays.shift {ns : List Nat} {ts : List Token} (h : DerivesArrays ns ts) (d : Nat) :
    DerivesArrays ns (ts.map (Token.shift d)) := by
  induction h with
  | nil => exact .nil
  | cons hn _ ih =>
    rw [List.map_append]
    refine .cons ?_ ih
    cases hn with
    | empty hl hr => exact .empty hl hr
    | dimensions hl hd hr =>
      rw [List.map_append, List.map_cons]
      exact .dimensions hl (hd.shift d) hr

mutual
/-- A derivation of an argument does not say where its tokens stand. -/
theorem DerivesArgument.shift {a : ArgumentTree} {ts : List Token} (h : DerivesArgument a ts)
    (d : Nat) : DerivesArgument a (ts.map (Token.shift d)) := by
  match h with
  | @DerivesArgument.reference m number mark ns ts hm hk hns =>
    show DerivesArgument (.reference mark (number.shift d).numeral ns) _
    exact .reference hm hk (hns.shift d)
  | .path hnames hns =>
    rw [List.map_append]
    exact .path (hnames.shift d) (hns.shift d)

theorem DerivesTypePath.shift {trees : List NameTree} {ts : List Token}
    (h : DerivesTypePath trees ts) (d : Nat) : DerivesTypePath trees (ts.map (Token.shift d)) := by
  match h with
  | .single hn => exact .single (hn.shift d)
  | .cons hn hperiod hmore =>
    rw [List.map_append, List.map_cons]
    exact .cons (hn.shift d) hperiod (hmore.shift d)

theorem DerivesTypeName.shift {tree : NameTree} {ts : List Token} (h : DerivesTypeName tree ts)
    (d : Nat) : DerivesTypeName tree (ts.map (Token.shift d)) := by
  match h with
  | @DerivesTypeName.plain t ht =>
    show DerivesTypeName (.mk (t.shift d).text []) _
    exact .plain ht
  | @DerivesTypeName.generic t l r arguments ts ht hl hargs hr =>
    rw [List.map_append]
    show DerivesTypeName (.mk (t.shift d).text arguments) _
    exact .generic ht hl (hargs.shift d) hr

theorem DerivesGenericArguments.shift {trees : List ArgumentTree} {ts : List Token}
    (h : DerivesGenericArguments trees ts) (d : Nat) :
    DerivesGenericArguments trees (ts.map (Token.shift d)) := by
  match h with
  | .single ha => exact .single (ha.shift d)
  | .cons ha hcomma hmore =>
    rw [List.map_append, List.map_cons]
    exact .cons (ha.shift d) hcomma (hmore.shift d)
end

end ApiDocs.Grammar
