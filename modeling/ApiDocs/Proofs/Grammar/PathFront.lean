import ApiDocs.Proofs.Grammar.Derivation

/-!
# The levels of a path in its tokens

The levels of a path are written one behind the other with a period between them, and there is no other
period in it.  Behind the path there are the parameters, with periods of their own, but these begin
with a parenthesis, and no path has one.

* `Grammar.lastPeriod?`: the last period in front of the parameters;
* `Grammar.DerivesPath.exists_split`: a path is what it is without its last level, a period and that
  level;
* `Grammar.lastPeriod?_eq_none`: a member id with one level has no such period;
* `Grammar.exists_split_of_derivesIdentifier`: the last period of a member id with several levels is the
  one in front of the last level of its path.
-/

namespace ApiDocs.Grammar

/-- The last period in front of the parameters. -/
def lastPeriod? (ts : List Token) : Option Token :=
  ((ts.takeWhile (·.kind != .leftParen)).filter (·.kind == .period)).getLast?

/-! ## Levels -/

/-- The kinds of the tokens of a level. -/
def segmentKinds : List TokenKind :=
  [.name, .sharp, .doubleSharp, .backtick, .doubleBacktick, .number]

theorem DerivesHashedName.kind_mem {names : List String} {ts : List Token}
    (h : DerivesHashedName names ts) : ∀ t ∈ ts, t.kind ∈ segmentKinds := by
  induction h with
  | single ht => simp [ht, segmentKinds]
  | cons ht hsharp _ ih =>
    rw [List.forall_mem_cons, List.forall_mem_cons, ht, hsharp]
    exact ⟨by decide, by decide, ih⟩

theorem DerivesSegmentName.kind_mem {name : SegmentName} {ts : List Token}
    (h : DerivesSegmentName name ts) : ∀ t ∈ ts, t.kind ∈ segmentKinds := by
  cases h with
  | special hsharp ht => simp [hsharp, ht, segmentKinds]
  | classSpecial hsharps ht => simp [hsharps, ht, segmentKinds]
  | hashed hd => exact hd.kind_mem

theorem DerivesArity.kind_mem {generics : Option (Mark × Numeral)} {ts : List Token}
    (h : DerivesArity generics ts) : ∀ t ∈ ts, t.kind ∈ segmentKinds := by
  cases h with
  | none => exact nofun
  | @some m number mark hm hnumber =>
    have hmark : m.kind ∈ segmentKinds := by
      revert hm
      cases m.kind <;> simp [TokenKind.mark?, segmentKinds]
    exact List.forall_mem_cons.mpr ⟨hmark, by simp [hnumber, segmentKinds]⟩

theorem DerivesSegment.kind_mem {s : SegmentTree} {ts : List Token} (h : DerivesSegment s ts) :
    ∀ t ∈ ts, t.kind ∈ segmentKinds := by
  obtain ⟨hname, harity⟩ := h
  exact List.forall_mem_append.mpr ⟨hname.kind_mem, harity.kind_mem⟩

theorem DerivesPath.kind_mem {outer : List SegmentTree} {last : SegmentTree} {ts : List Token}
    (h : DerivesPath outer last ts) : ∀ t ∈ ts, t.kind ∈ .period :: segmentKinds := by
  induction h with
  | single hs => exact fun t ht => List.mem_cons_of_mem _ (hs.kind_mem t ht)
  | cons hs hperiod _ ih =>
    rw [List.forall_mem_append, List.forall_mem_cons, hperiod]
    exact ⟨fun t ht => List.mem_cons_of_mem _ (hs.kind_mem t ht), List.mem_cons_self, ih⟩

/-! ## The last level -/

/-- A path of several levels is the path without the last of them, a period and the last. -/
theorem DerivesPath.exists_split {outer : List SegmentTree} {s last : SegmentTree} {ts : List Token}
    (h : DerivesPath (outer ++ [s]) last ts) : ∃ us period vs, ts = us ++ period :: vs ∧
      period.kind = .period ∧ DerivesPath outer s us ∧ DerivesSegment last vs := by
  induction outer generalizing ts with
  | nil =>
    cases h with
    | cons hs hperiod hmore =>
      cases hmore with
      | single hlast => exact ⟨_, _, _, rfl, hperiod, .single hs, hlast⟩
  | cons s' outer ih =>
    cases h with
    | @cons _ _ _ period' ts' _ hs hperiod hmore =>
      obtain ⟨us, period, vs, rfl, hk, hd, hlast⟩ := ih hmore
      refine ⟨ts' ++ period' :: us, period, vs, ?_, hk, .cons hs hperiod hd, hlast⟩
      rw [List.append_assoc, List.cons_append]

/-- Parameters begin with a parenthesis. -/
theorem DerivesParameters.takeWhile_append {ps : Option (List ParameterTree)} {ts : List Token}
    (h : DerivesParameters ps ts) (n : Nat) :
    (ts ++ [Token.endAt n]).takeWhile (·.kind != .leftParen) = [] ∨
      (ts ++ [Token.endAt n]).takeWhile (·.kind != .leftParen) = [Token.endAt n] := by
  cases h with
  | none => exact .inr rfl
  | empty hl => exact .inl (by simp [hl])
  | list hl => exact .inl (by simp [hl])

/-- The periods in front of the parameters are those of the path. -/
theorem lastPeriod?_append {outer : List SegmentTree} {last : SegmentTree}
    {ps : Option (List ParameterTree)} {path rest : List Token} (hpath : DerivesPath outer last path)
    (hps : DerivesParameters ps rest) (n : Nat) : lastPeriod? (path ++ rest ++ [Token.endAt n]) =
      (path.filter (·.kind == .period)).getLast? := by
  have hnoParen : ∀ t ∈ path, (t.kind != .leftParen) = true := by
    intro t ht
    refine bne_iff_ne.mpr fun hparen => ?_
    have hmem := hpath.kind_mem t ht
    rw [hparen] at hmem
    exact absurd hmem (by decide)
  have hbehind : ((rest ++ [Token.endAt n]).takeWhile (·.kind != .leftParen)).filter
      (·.kind == .period) = [] := by
    rcases hps.takeWhile_append n with htake | htake <;> rw [htake] <;> rfl
  rw [lastPeriod?, List.append_assoc, List.takeWhile_append_of_pos hnoParen, List.filter_append,
    hbehind, List.append_nil]

theorem DerivesSegment.filter_period {s : SegmentTree} {ts : List Token} (h : DerivesSegment s ts) :
    ts.filter (·.kind == .period) = [] := by
  refine List.filter_eq_nil_iff.mpr fun t ht hperiod => ?_
  have hmem := h.kind_mem t ht
  rw [beq_iff_eq.mp hperiod] at hmem
  exact absurd hmem (by decide)

/-- In a member id with one level there is no period in front of the parameters. -/
theorem lastPeriod?_eq_none {last : SegmentTree} {ps : Option (List ParameterTree)} {ts : List Token}
    (n : Nat) (h : DerivesIdentifier ⟨[], last, ps⟩ ts) :
    lastPeriod? (ts ++ [Token.endAt n]) = none := by
  obtain @⟨_, _, _, path, rest, hpath, hps⟩ := h
  rw [lastPeriod?_append hpath hps]
  cases hpath with
  | single hs => rw [hs.filter_period, List.getLast?_nil]

/-- In a member id with several levels the last period in front of the parameters is the one in front
of the last level; in front of it stands the path without that level. -/
theorem exists_split_of_derivesIdentifier {outer : List SegmentTree} {s last : SegmentTree}
    {ps : Option (List ParameterTree)} {ts : List Token} (n : Nat)
    (h : DerivesIdentifier ⟨outer ++ [s], last, ps⟩ ts) : ∃ us period vs, ts = us ++ period :: vs ∧
      period.kind = .period ∧ DerivesPath outer s us ∧
      lastPeriod? (ts ++ [Token.endAt n]) = some period := by
  obtain @⟨_, _, _, path, rest, hpath, hps⟩ := h
  have hlast := lastPeriod?_append hpath hps n
  obtain ⟨us, period, vs, rfl, hk, hd, hs⟩ := hpath.exists_split
  refine ⟨us, period, vs ++ rest, by rw [List.append_assoc, List.cons_append], hk, hd, ?_⟩
  rw [hlast, List.filter_append, List.filter_cons, if_pos (beq_iff_eq.mpr hk), hs.filter_period,
    List.getLast?_concat]

end ApiDocs.Grammar
