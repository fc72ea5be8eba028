import ApiDocs.Proofs.Grammar.Ahead

/-!
# Reading paths

Each production of a path leaves what its parts leave one behind the other, so that it reads as its
equation says.  Numbers have to be readable.

* `Grammar.leaves_path` and the others: what a production leaves;
* `Grammar.decides_path`: a path that is read is the only one up to the token ahead, and one that is not
  read stops at a token that does not go on with it, or at a number with too many digits.
-/

namespace ApiDocs.Grammar

variable {check : Check} {goesOn : List TokenKind} {ts : List Token} {e : ParseFault}

/-! ## Names -/

theorem leaves_nameParts (ts : List Token) : leaves (nameParts ts) =
    if (ahead ts).kind = .sharp then
      leaves (expect .name .interfaceName ts.tail) >>= fun mid => leaves (nameParts mid)
    else .ok ts := by
  cases ts with
  | nil =>
    rw [nameParts]
    rfl
  | cons t rest =>
    rw [nameParts]
    by_cases hk : t.kind = .sharp
    · rw [if_pos hk]
      refine Eq.trans ?_ (if_pos hk).symm
      rw [List.tail_cons]
      rcases expect .name .interfaceName rest with e | ⟨⟨part, mid⟩, hlt⟩
      · rfl
      · show _ = leaves (nameParts mid)
        dsimp only
        cases nameParts mid <;> rfl
    · rw [if_neg hk]
      exact (if_neg hk).symm

theorem decides_nameParts (ts : List Token) :
    Decides [.sharp] check (1 + oneOf [.sharp] * hashedNameTokens) ts (leaves (nameParts ts)) := by
  rw [leaves_nameParts]
  refine Decides.option ?_ (by decide) (by decide)
  rw [hashedNameTokens_eq]
  refine (decides_expect (by decide) .interfaceName ts.tail).next ⟨[], nil_mem_one_add⟩ fun mid hmid => ?_
  have hlt : mid.length < ts.tail.length := length_lt_of_leaves hmid
  exact decides_nameParts mid
termination_by ts.length
decreasing_by
  rw [List.length_tail] at hlt
  omega

theorem begins_hashedNameTokens : Begins [.name] hashedNameTokens := by
  rw [hashedNameTokens_eq]
  exact (begins_oneOf [.name]).mul _

theorem begins_special (kind : TokenKind) : Begins [kind] (oneOf [kind] * oneOf [.name]) :=
  (begins_oneOf [kind]).mul _

theorem begins_notSharp : Begins [.doubleSharp, .name]
    (oneOf [.doubleSharp] * oneOf [.name] + hashedNameTokens) :=
  ((begins_special .doubleSharp).mono (by decide)).add (begins_hashedNameTokens.mono (by decide))

theorem begins_segmentNameTokens : Begins [.sharp, .doubleSharp, .name] segmentNameTokens := by
  rw [segmentNameTokens_eq]
  exact ((begins_special .sharp).mono (by decide)).add (begins_notSharp.mono (by decide))

theorem exists_mem_segmentNameTokens : ∃ ws, ws ∈ segmentNameTokens :=
  ⟨[⟨.name, 0, []⟩], _, .hashed (.single rfl)⟩

theorem leaves_segmentName (ts : List Token) : leaves (segmentName ts) =
    if (ahead ts).kind = .sharp then leaves (expect .name .specialName ts.tail)
    else if (ahead ts).kind = .doubleSharp then leaves (expect .name .classSpecialName ts.tail)
    else if (ahead ts).kind = .name then leaves (nameParts ts.tail)
    else .error (refuse (ahead ts) .memberName) := by
  cases ts with
  | nil => rfl
  | cons t rest =>
    have hahead : ahead (t :: rest) = t := rfl
    rw [segmentName, hahead, List.tail_cons]
    split
    · next hk =>
      rw [if_pos hk]
      cases expect .name .specialName rest <;> rfl
    · next hk =>
      simp only [hk, reduceCtorEq, if_false, if_true]
      cases expect .name .classSpecialName rest <;> rfl
    · next hk =>
      simp only [hk, reduceCtorEq, if_false, if_true]
      cases nameParts rest <;> rfl
    · next hsharp hsharps hname =>
      rw [if_neg hsharp, if_neg hsharps, if_neg hname]
      rfl

theorem decides_special {kind : TokenKind} (hplain : IsPlain kind) (what : Expectation)
    (hk : (ahead ts).kind = kind) :
    Decides goesOn check (oneOf [kind] * oneOf [.name]) ts (leaves (expect .name what ts.tail)) :=
  ((decides_expect (by decide) what ts.tail).mono (List.nil_subset goesOn)).behind hk hplain

theorem decides_segmentName (ts : List Token) :
    Decides [.sharp] check segmentNameTokens ts (leaves (segmentName ts)) := by
  rw [leaves_segmentName]
  split
  · next hk =>
    rw [segmentNameTokens_eq]
    exact (decides_special (by decide) .specialName hk).or_left begins_notSharp (by simp [hk])
  split
  · next hk =>
    rw [segmentNameTokens_eq]
    refine Decides.or_right ?_ (begins_special .sharp) (by simp [hk])
    exact (decides_special (by decide) .classSpecialName hk).or_left begins_hashedNameTokens
      (by simp [hk])
  split
  · next hk =>
    rw [segmentNameTokens_eq]
    refine Decides.or_right ?_ (begins_special .sharp) (by simp [hk])
    refine Decides.or_right ?_ (begins_special .doubleSharp) (by simp [hk])
    rw [hashedNameTokens_eq]
    exact (decides_nameParts ts.tail).behind hk (by decide)
  · next hsharp hsharps hname =>
    refine begins_segmentNameTokens.stops ?_ exists_mem_segmentNameTokens _
    simpa using ⟨hsharp, hsharps, hname⟩

/-! ## Paths -/

/-- A number has to have few enough digits. -/
def readableCheck : Check := fun _ n => (numberOf n).map fun _ => ()

section
variable {mark : Mark} {n : Token}

theorem numberOf_eq_error (h : numberOf n = .error e) :
    ¬ n.numeral.IsReadable ∧ e = .longNumber n.length := by
  rw [numberOf] at h
  split at h
  · next hlen =>
    cases h
    exact ⟨Nat.not_le.mpr hlen, rfl⟩
  · cases h

theorem readableCheck_eq_ok (h : readableCheck mark n = .ok ()) : n.numeral.IsReadable := by
  rw [readableCheck] at h
  cases hn : numberOf n with
  | ok index => exact (numberOf_eq_ok hn).1
  | error e =>
    rw [hn] at h
    cases h

theorem readableCheck_eq_error (h : readableCheck mark n = .error e) :
    ¬ n.numeral.IsReadable ∧ e = .longNumber n.length := by
  rw [readableCheck] at h
  cases hn : numberOf n with
  | ok index =>
    rw [hn] at h
    cases h
  | error e' =>
    rw [hn] at h
    cases h
    exact numberOf_eq_error hn

end

theorem not_mem_markKinds {kind : TokenKind} (h : kind.mark? = none) : kind ∉ markKinds := by
  rw [mem_markKinds_iff]
  rintro ⟨mark, hmark⟩
  rw [h] at hmark
  cases hmark

theorem leaves_generics (m : Token) (rest : List Token) : leaves (generics (m :: rest)) =
    match m.kind.mark? with
    | none => .ok (m :: rest)
    | some mark => leavesNumber readableCheck mark (.arity mark) rest := by
  rw [generics]
  cases m.kind.mark? with
  | none => rfl
  | some mark =>
    dsimp only
    rw [leavesNumber]
    rcases expect .number (.arity mark) rest with e | ⟨⟨n, left⟩, hlt⟩
    · rfl
    · dsimp only [readableCheck]
      cases numberOf n <;> rfl

theorem decides_generics (ts : List Token) :
    Decides markKinds readableCheck arityTokens ts (leaves (generics ts)) := by
  rw [arityTokens_eq]
  cases ts with
  | nil => exact (decides_one []).or_left begins_numberTokens (by decide)
  | cons m rest =>
    rw [leaves_generics]
    split
    · next hm => exact (decides_one _).or_left begins_numberTokens (not_mem_markKinds hm)
    · next mark hm =>
      rw [add_comm]
      exact ((decides_number hm (.arity mark) rest).mono (List.nil_subset markKinds)).or
        (blocked_one (mem_markKinds_iff.mpr ⟨mark, hm⟩))

theorem closes_arityTokens : Closes [.sharp] arityTokens segmentGoesOn := by
  rw [arityTokens_eq]
  exact begins_numberTokens.closes_one_add (by decide) (by decide)

theorem leaves_segment (ts : List Token) : leaves (segment ts) =
    leaves (segmentName ts) >>= fun mid => leaves (generics mid) := by
  rw [segment]
  rcases segmentName ts with e | ⟨⟨name, mid⟩, hlt⟩
  · rfl
  · show _ = leaves (generics mid)
    dsimp only
    cases generics mid <;> rfl

theorem decides_segment (ts : List Token) :
    Decides segmentGoesOn readableCheck segmentTokens ts (leaves (segment ts)) := by
  rw [leaves_segment, segmentTokens_eq]
  refine (decides_segmentName ts).bind ⟨[], none, .none⟩ closes_arityTokens fun mid _ => ?_
  exact (decides_generics mid).mono (by decide)

theorem leaves_path (ts : List Token) : leaves (path ts) = leaves (segment ts) >>= fun mid =>
    if (ahead mid).kind = .period then leaves (path mid.tail) else .ok mid := by
  rw [path]
  rcases segment ts with e | ⟨⟨s, _ | ⟨t, rest⟩⟩, hlt⟩
  · rfl
  · rfl
  · show _ = if t.kind = .period then leaves (path rest) else .ok (t :: rest)
    dsimp only
    split
    · cases path rest <;> rfl
    · rfl

/-- A path that is read is the only one up to the token ahead, and one that is not read stops. -/
theorem decides_path (ts : List Token) :
    Decides (.period :: segmentGoesOn) readableCheck pathTokens ts (leaves (path ts)) := by
  rw [leaves_path, pathTokens_eq]
  refine (decides_segment ts).followed (fun left => leaves (path left)) (by decide) (by decide) fun mid hmid => ?_
  have hlt : mid.length < ts.length := length_lt_of_leaves hmid
  exact decides_path mid.tail
termination_by ts.length
decreasing_by
  rw [List.length_tail]
  omega

end ApiDocs.Grammar
