import ApiDocs.Proofs.Grammar.ReadPath

/-!
# Reading parameters

The productions of arguments and parameters leave what their parts leave one behind the other, too.
Numbers behind marks have to mean a name of a scope.

* `Grammar.leaves_argument`, `Grammar.leaves_parameters` and the others: what a production leaves;
* `Grammar.decides_argument`: arguments, along the calls of the parser;
* `Grammar.decides_parameters`: parameters.
-/

namespace ApiDocs.Grammar

variable {check : Check} {ts : List Token} {e : ParseFault}

/-! ## Array suffixes -/

theorem begins_dimensionsTokens : Begins [.number] dimensionsTokens := by
  rw [dimensionsTokens_eq]
  exact (begins_oneOf [.number]).mul _

theorem leaves_dimensions (ts : List Token) : leaves (dimensions ts) =
    leaves (expect .number .dimension ts) >>= fun mid =>
      leaves (expect .colon .dimensionColon mid) >>= fun mid' =>
        if (ahead mid').kind = .comma then leaves (dimensions mid'.tail) else .ok mid' := by
  rw [dimensions]
  rcases expect .number .dimension ts with e | ⟨⟨number, mid⟩, hlt⟩
  · rfl
  show _ = leaves (expect .colon .dimensionColon mid) >>= _
  dsimp only
  rcases expect .colon .dimensionColon mid with e | ⟨⟨colon, _ | ⟨t, rest⟩⟩, hlt'⟩
  · rfl
  · rfl
  · show _ = if t.kind = .comma then leaves (dimensions rest) else .ok (t :: rest)
    dsimp only
    split
    · cases dimensions rest <;> rfl
    · rfl

theorem decides_dimensions (ts : List Token) :
    Decides [.comma] check dimensionsTokens ts (leaves (dimensions ts)) := by
  rw [leaves_dimensions, dimensionsTokens_eq]
  have hsome : ∃ ws, ws ∈ oneOf [.colon] * (1 + oneOf [.comma] * dimensionsTokens) :=
    ⟨[⟨.colon, 0, []⟩], mem_oneOf_single_mul.mpr ⟨_, [], rfl, nil_mem_one_add, rfl⟩⟩
  refine (decides_expect (by decide) .dimension ts).next hsome fun mid hmid => ?_
  have hlt : mid.length < ts.length := length_lt_of_leaves hmid
  refine (decides_expect (by decide) .dimensionColon mid).followed
    (fun left => leaves (dimensions left)) (by decide) (by decide) fun mid' hmid' => ?_
  have hlt' : mid'.length < mid.length := length_lt_of_leaves hmid'
  exact decides_dimensions mid'.tail
termination_by ts.length
decreasing_by
  rw [List.length_tail]
  omega

theorem leaves_arrayBody (ts : List Token) : leaves (arrayBody ts) =
    if (ahead ts).kind = .rightBracket then leaves (expect .rightBracket .rightBracket ts)
    else leaves (dimensions ts) >>= fun mid => leaves (expect .rightBracket .rightBracket mid) := by
  rw [arrayBody]
  split
  · cases expect .rightBracket .rightBracket ts <;> rfl
  · rcases dimensions ts with e | ⟨⟨n, mid⟩, hlt⟩
    · rfl
    · show _ = leaves (expect .rightBracket .rightBracket mid)
      dsimp only
      cases expect .rightBracket .rightBracket mid <;> rfl

theorem decides_arrayBody (ts : List Token) :
    Decides [] check arrayBodyTokens ts (leaves (arrayBody ts)) := by
  rw [leaves_arrayBody]
  exact (decides_dimensions ts).closed .rightBracket (by decide) (by decide) begins_dimensionsTokens
    (by decide)

theorem begins_leftBracket : Begins [.leftBracket]
    (oneOf [.leftBracket] * (arrayBodyTokens * arraysTokens)) :=
  (begins_oneOf [.leftBracket]).mul _

theorem nil_mem_arraysTokens : [] ∈ arraysTokens := ⟨[], .nil⟩

theorem leaves_arrays (ts : List Token) : leaves (arrays ts) =
    if (ahead ts).kind = .leftBracket then
      leaves (arrayBody ts.tail) >>= fun mid => leaves (arrays mid)
    else .ok ts := by
  cases ts with
  | nil =>
    rw [arrays]
    rfl
  | cons t rest =>
    have hahead : ahead (t :: rest) = t := rfl
    rw [arrays, hahead, List.tail_cons]
    split
    · rcases arrayBody rest with e | ⟨⟨n, mid⟩, hlt⟩
      · rfl
      · show _ = leaves (arrays mid)
        dsimp only
        cases arrays mid <;> rfl
    · rfl

theorem decides_arrays (ts : List Token) :
    Decides [.leftBracket] check arraysTokens ts (leaves (arrays ts)) := by
  rw [leaves_arrays, arraysTokens_eq]
  refine Decides.option ?_ (by decide) (by decide)
  refine (decides_arrayBody ts.tail).next ⟨[], nil_mem_arraysTokens⟩ fun mid hmid => ?_
  have hlt : mid.length < ts.tail.length := length_lt_of_leaves hmid
  exact decides_arrays mid
termination_by ts.length
decreasing_by
  rw [List.length_tail] at hlt
  omega

/-! ## Arguments -/

/-- A number has to have few enough digits, and a name of the scope has to stand at it. -/
def scopeCheck (scope : Scope) : Check := fun mark n =>
  match numberOf n with
  | .error e => .error e
  | .ok index =>
    if index < (scope.names mark).length then .ok ()
    else .error (.name ⟨.outOfRange index (scope.names mark).length, n.start⟩)

section
variable {scope : Scope} {mark : Mark} {n : Token}

theorem scopeCheck_eq_ok (h : scopeCheck scope mark n = .ok ()) :
    n.numeral.IsReadable ∧ n.numeral.value < (scope.names mark).length := by
  rw [scopeCheck] at h
  split at h
  · cases h
  · next index hn =>
    obtain ⟨hread, rfl⟩ := numberOf_eq_ok hn
    split at h
    · next hlt => exact ⟨hread, hlt⟩
    · cases h

theorem scopeCheck_eq_error (h : scopeCheck scope mark n = .error e) :
    (¬ n.numeral.IsReadable ∧ e = .longNumber n.length) ∨
      n.numeral.IsReadable ∧ (scope.names mark).length ≤ n.numeral.value ∧
        e = .name ⟨.outOfRange n.numeral.value (scope.names mark).length, n.start⟩ := by
  rw [scopeCheck] at h
  split at h
  · next e' hn =>
    cases h
    exact .inl (numberOf_eq_error hn)
  · next index hn =>
    obtain ⟨hread, rfl⟩ := numberOf_eq_ok hn
    split at h
    · cases h
    · next hlt =>
      cases h
      exact .inr ⟨hread, Nat.not_lt.mp hlt, rfl⟩

end

theorem leaves_reference (scope : Scope) (mark : Mark) (ts : List Token) :
    leaves (reference scope mark ts) =
      leavesNumber (scopeCheck scope) mark (.genericIndex mark) ts := by
  rw [reference, leavesNumber]
  rcases expect .number (.genericIndex mark) ts with e | ⟨⟨n, left⟩, hlt⟩
  · rfl
  dsimp only [scopeCheck]
  cases numberOf n with
  | error e => rfl
  | ok index =>
    dsimp only
    by_cases hindex : index < (scope.names mark).length
    · rw [List.getElem?_eq_getElem hindex, if_pos hindex]
      rfl
    · rw [List.getElem?_eq_none (Nat.not_lt.mp hindex), if_neg hindex]
      rfl

theorem not_mem_name_of_mark {kind : TokenKind} {mark : Mark} (h : kind.mark? = some mark) :
    kind ∉ [.name] := by
  rw [List.mem_singleton]
  rintro rfl
  cases h

theorem begins_typeNameTokens : Begins [.name] typeNameTokens := by
  rw [typeNameTokens_eq]
  exact (begins_oneOf [.name]).mul _

theorem begins_typePathTokens : Begins [.name] typePathTokens := by
  rw [typePathTokens_eq]
  exact begins_typeNameTokens.mul _

theorem begins_argumentTokens : Begins [.name, .backtick, .doubleBacktick] argumentTokens := by
  rw [argumentTokens_eq]
  exact ((begins_numberTokens.mul _).mono (by decide)).add
    ((begins_typePathTokens.mul _).mono (by decide))

theorem closes_arraysTokens : Closes [.period, .leftBrace] arraysTokens argumentGoesOn := by
  rw [arraysTokens_eq]
  exact begins_leftBracket.closes_one_add (by decide) (by decide)

theorem leaves_argument (scope : Scope) (ts : List Token) : leaves (argument scope ts) =
    match (ahead ts).kind.mark? with
    | some mark => leaves (reference scope mark ts.tail) >>= fun mid => leaves (arrays mid)
    | none => leaves (typePath scope ts) >>= fun mid => leaves (arrays mid) := by
  rw [argument]
  cases hm : (ahead ts).kind.mark? with
  | none =>
    rcases typePath scope ts with e | ⟨⟨names, mid⟩, hlt⟩
    · rfl
    · show _ = leaves (arrays mid)
      dsimp only
      cases arrays mid <;> rfl
  | some mark =>
    cases ts with
    | nil => cases hm
    | cons m rest =>
      rw [List.tail_cons]
      dsimp only
      rcases reference scope mark rest with e | ⟨⟨name, mid⟩, hlt⟩
      · rfl
      · show _ = leaves (arrays mid)
        dsimp only
        cases arrays mid <;> rfl

theorem leaves_typePath (scope : Scope) (ts : List Token) : leaves (typePath scope ts) =
    leaves (typeName scope ts) >>= fun mid =>
      if (ahead mid).kind = .period then leaves (typePath scope mid.tail) else .ok mid := by
  rw [typePath]
  rcases typeName scope ts with e | ⟨⟨name, _ | ⟨t, rest⟩⟩, hlt⟩
  · rfl
  · rfl
  · show _ = if t.kind = .period then leaves (typePath scope rest) else .ok (t :: rest)
    dsimp only
    split
    · cases typePath scope rest <;> rfl
    · rfl

theorem leaves_typeName (scope : Scope) (ts : List Token) : leaves (typeName scope ts) =
    leaves (expect .name .typeName ts) >>= fun mid =>
      if (ahead mid).kind = .leftBrace then
        leaves (genericArguments scope mid.tail) >>= fun mid' =>
          leaves (expect .rightBrace .rightBrace mid')
      else .ok mid := by
  rw [typeName]
  rcases expect .name .typeName ts with e | ⟨⟨name, _ | ⟨t, rest⟩⟩, hlt⟩
  · rfl
  · rfl
  · show _ = if t.kind = .leftBrace then leaves (genericArguments scope rest) >>= _
      else .ok (t :: rest)
    dsimp only
    split
    · rcases genericArguments scope rest with e | ⟨⟨arguments, mid⟩, hlt'⟩
      · rfl
      · show _ = leaves (expect .rightBrace .rightBrace mid)
        dsimp only
        cases expect .rightBrace .rightBrace mid <;> rfl
    · rfl

theorem leaves_genericArguments (scope : Scope) (ts : List Token) :
    leaves (genericArguments scope ts) = leaves (argument scope ts) >>= fun mid =>
      if (ahead mid).kind = .comma then leaves (genericArguments scope mid.tail) else .ok mid := by
  rw [genericArguments]
  rcases argument scope ts with e | ⟨⟨first, _ | ⟨t, rest⟩⟩, hlt⟩
  · rfl
  · rfl
  · show _ = if t.kind = .comma then leaves (genericArguments scope rest) else .ok (t :: rest)
    dsimp only
    split
    · cases genericArguments scope rest <;> rfl
    · rfl

mutual
/-- An argument that is read is the only one up to the token ahead, and one that is not read stops. -/
theorem decides_argument (scope : Scope) (ts : List Token) :
    Decides argumentGoesOn (scopeCheck scope) argumentTokens ts (leaves (argument scope ts)) := by
  rw [leaves_argument, argumentTokens_eq]
  split
  · next mark hm =>
    cases ts with
    | nil => cases hm
    | cons m rest =>
      rw [List.tail_cons, leaves_reference]
      refine Decides.or_left ?_ (begins_typePathTokens.mul _) (not_mem_name_of_mark hm)
      refine (decides_number hm (.genericIndex mark) rest).next ⟨[], nil_mem_arraysTokens⟩ ?_
      exact fun mid _ => (decides_arrays mid).mono (by decide)
  · next hm =>
    refine Decides.or_right ?_ (begins_numberTokens.mul _) (not_mem_markKinds hm)
    refine (decides_typePath scope ts).bind ⟨[], nil_mem_arraysTokens⟩ closes_arraysTokens ?_
    exact fun mid _ => (decides_arrays mid).mono (by decide)
termination_by (ts.length, 2)

theorem decides_typePath (scope : Scope) (ts : List Token) :
    Decides [.period, .leftBrace] (scopeCheck scope) typePathTokens ts
      (leaves (typePath scope ts)) := by
  rw [leaves_typePath, typePathTokens_eq]
  refine (decides_typeName scope ts).followed (fun left => leaves (typePath scope left)) (by decide)
    (by decide) fun mid hmid => ?_
  have hlt : mid.length < ts.length := length_lt_of_leaves hmid
  exact decides_typePath scope mid.tail
termination_by (ts.length, 1)

theorem decides_typeName (scope : Scope) (ts : List Token) :
    Decides [.leftBrace] (scopeCheck scope) typeNameTokens ts (leaves (typeName scope ts)) := by
  rw [leaves_typeName, typeNameTokens_eq]
  refine (decides_expect (by decide) .typeName ts).followed
    (fun left => leaves (genericArguments scope left) >>= fun mid =>
      leaves (expect .rightBrace .rightBrace mid)) (by decide) (by decide) fun mid hmid => ?_
  have hlt : mid.length < ts.length := length_lt_of_leaves hmid
  exact (decides_genericArguments scope mid.tail).until .rightBrace (by decide) (by decide)
termination_by (ts.length, 0)

theorem decides_genericArguments (scope : Scope) (ts : List Token) :
    Decides (.comma :: argumentGoesOn) (scopeCheck scope) genericArgumentsTokens ts
      (leaves (genericArguments scope ts)) := by
  rw [leaves_genericArguments, genericArgumentsTokens_eq]
  refine (decides_argument scope ts).followed (fun left => leaves (genericArguments scope left))
    (by decide) (by decide) fun mid hmid => ?_
  have hlt : mid.length < ts.length := length_lt_of_leaves hmid
  exact decides_genericArguments scope mid.tail
termination_by (ts.length, 3)
end

/-! ## Parameters -/

theorem outMark_eq (ts : List Token) :
    (outMark ts).val.2 = if (ahead ts).kind = .atSign then ts.tail else ts := by
  cases ts with
  | nil => rfl
  | cons t rest =>
    show _ = if t.kind = .atSign then rest else t :: rest
    rw [outMark]
    split <;> rfl

/-- What an argument and the sign behind it leave. -/
def leavesParameter (scope : Scope) (ts : List Token) : Except ParseFault (List Token) :=
  leaves (argument scope ts) >>= fun mid => .ok (outMark mid).val.2

theorem length_lt_of_leavesParameter {scope : Scope} {left : List Token}
    (h : leavesParameter scope ts = .ok left) : left.length < ts.length := by
  rw [leavesParameter] at h
  cases hargument : argument scope ts with
  | error e =>
    rw [hargument] at h
    cases h
  | ok r =>
    rw [hargument] at h
    cases h
    exact Nat.lt_of_le_of_lt (outMark r.val.2).property r.property

theorem decides_parameter (scope : Scope) (ts : List Token) :
    Decides parameterGoesOn (scopeCheck scope) parameterTokens ts (leavesParameter scope ts) := by
  have hleaves : leavesParameter scope ts = leaves (argument scope ts) >>= fun mid =>
      if (ahead mid).kind = .atSign then .ok mid.tail else .ok mid := by
    simp only [leavesParameter, outMark_eq, apply_ite]
  rw [hleaves, parameterTokens_eq, ← mul_one (oneOf [.atSign])]
  exact (decides_argument scope ts).followed .ok (by decide) (by decide) fun mid _ =>
    decides_one mid.tail

theorem leaves_parameterList (scope : Scope) (ts : List Token) :
    leaves (parameterList scope ts) = leavesParameter scope ts >>= fun mid =>
      if (ahead mid).kind = .comma then leaves (parameterList scope mid.tail) else .ok mid := by
  rw [parameterList, leavesParameter]
  rcases argument scope ts with e | ⟨⟨type, mid⟩, hlt⟩
  · rfl
  show _ = (Except.ok (outMark mid).val.2 : Except ParseFault (List Token)) >>= _
  dsimp only
  rcases outMark mid with ⟨⟨kind, _ | ⟨t, rest⟩⟩, hle⟩
  · rfl
  · show _ = if t.kind = .comma then leaves (parameterList scope rest) else .ok (t :: rest)
    dsimp only
    split
    · cases parameterList scope rest <;> rfl
    · rfl

theorem decides_parameterList (scope : Scope) (ts : List Token) :
    Decides (.comma :: parameterGoesOn) (scopeCheck scope) parameterListTokens ts
      (leaves (parameterList scope ts)) := by
  rw [leaves_parameterList, parameterListTokens_eq]
  refine (decides_parameter scope ts).followed (fun left => leaves (parameterList scope left))
    (by decide) (by decide) fun mid hmid => ?_
  have hlt : mid.length < ts.length := length_lt_of_leavesParameter hmid
  exact decides_parameterList scope mid.tail
termination_by ts.length
decreasing_by
  rw [List.length_tail]
  omega

theorem begins_parameterListTokens :
    Begins [.name, .backtick, .doubleBacktick] parameterListTokens := by
  rw [parameterListTokens_eq, parameterTokens_eq]
  exact (begins_argumentTokens.mul _).mul _

theorem leaves_parameters (scope : Scope) (ts : List Token) :
    leaves (Grammar.parameters scope ts) =
      if (ahead ts).kind = .leftParen then
        if (ahead ts.tail).kind = .rightParen then
          leaves (expect .rightParen .rightParen ts.tail)
        else leaves (parameterList scope ts.tail) >>= fun mid =>
          leaves (expect .rightParen .rightParen mid)
      else .ok ts := by
  cases ts with
  | nil => rfl
  | cons t rest =>
    have hahead : ahead (t :: rest) = t := rfl
    rw [Grammar.parameters, hahead, List.tail_cons]
    split
    · split
      · cases expect .rightParen .rightParen rest <;> rfl
      · rcases parameterList scope rest with e | ⟨⟨list, mid⟩, hlt⟩
        · rfl
        · show _ = leaves (expect .rightParen .rightParen mid)
          dsimp only
          cases expect .rightParen .rightParen mid <;> rfl
    · rfl

/-- Parameters that are read are the only ones up to the token ahead, and those that are not read
stop. -/
theorem decides_parameters (scope : Scope) (ts : List Token) :
    Decides [.leftParen] (scopeCheck scope) parametersTokens ts
      (leaves (Grammar.parameters scope ts)) := by
  rw [leaves_parameters, parametersTokens_eq]
  refine Decides.option ?_ (by decide) (by decide)
  exact (decides_parameterList scope ts.tail).closed .rightParen (by decide) (by decide)
    begins_parameterListTokens (by decide)

end ApiDocs.Grammar
