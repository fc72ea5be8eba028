import ApiDocs.Proofs.Grammar.Derivation

/-!
# What the parser accepts is derived

A production that succeeds has read a front of its tokens, that front is derived from the production,
and what it returns is read off the tree.  Numbers and references that it has passed are in order.

* `Grammar.derives_of_path`, `Grammar.derives_of_argument`, `Grammar.derives_of_parameters`: the
  three parts of a member id;
* `Grammar.derives_of_argument` is proved along the calls of the parser, which end because every
  production leaves fewer tokens than it was given.
-/

namespace ApiDocs.Grammar

/-! ## Single tokens -/

theorem expect_eq_ok {kind : TokenKind} {what : Expectation} {ts : List Token} {t : Token}
    {rest : List Token} {hlt} (h : expect kind what ts = .ok ⟨(t, rest), hlt⟩) :
    ts = t :: rest ∧ t.kind = kind := by
  cases ts with
  | nil => cases h
  | cons t rest =>
    rw [expect] at h
    split at h
    · next ht =>
      cases h
      exact ⟨rfl, ht⟩
    · cases h

theorem numberOf_eq_ok {t : Token} {n : Nat} (h : numberOf t = .ok n) :
    t.numeral.IsReadable ∧ t.numeral.value = n := by
  rw [numberOf] at h
  split at h
  · cases h
  · next hlen =>
    cases h
    exact ⟨Nat.not_lt.mp hlen, rfl⟩

/-! ## Paths -/

theorem derives_of_nameParts {ts left : List Token} {parts : List String} {hle}
    (h : nameParts ts = .ok ⟨(parts, left), hle⟩) : ∃ used, ts = used ++ left ∧
      ∀ t, t.kind = .name → DerivesHashedName (t.text :: parts) (t :: used) := by
  fun_induction nameParts ts generalizing parts left with
  | case1 =>
    cases h
    exact ⟨[], rfl, fun t ht => .single ht⟩
  | case2 => cases h
  | case3 => cases h
  | case4 sharp rest hsharp part rest' hlt hpart parts left hle hparts ih =>
    cases h
    obtain ⟨rfl, hname⟩ := expect_eq_ok hpart
    obtain ⟨used, rfl, hd⟩ := ih hparts
    exact ⟨sharp :: part :: used, rfl, fun t ht => .cons ht hsharp (hd part hname)⟩
  | case5 =>
    cases h
    exact ⟨[], rfl, fun t ht => .single ht⟩

theorem derives_of_segmentName {ts left : List Token} {name : SegmentName} {hlt}
    (h : segmentName ts = .ok ⟨(name, left), hlt⟩) :
    ∃ used, ts = used ++ left ∧ DerivesSegmentName name used := by
  cases ts with
  | nil => cases h
  | cons t rest =>
    rw [segmentName] at h
    split at h
    · next hsharp =>
      split at h
      · cases h
      · next name left' hlt' hname =>
        cases h
        obtain ⟨rfl, hkind⟩ := expect_eq_ok hname
        exact ⟨[t, name], rfl, .special hsharp hkind⟩
    · next hsharps =>
      split at h
      · cases h
      · next name left' hlt' hname =>
        cases h
        obtain ⟨rfl, hkind⟩ := expect_eq_ok hname
        exact ⟨[t, name], rfl, .classSpecial hsharps hkind⟩
    · next hkind =>
      split at h
      · cases h
      · next parts left' hle hparts =>
        cases h
        obtain ⟨used, rfl, hd⟩ := derives_of_nameParts hparts
        exact ⟨t :: used, rfl, .hashed (hd t hkind)⟩
    · cases h

theorem derives_of_generics {ts left : List Token} {g : Option (Mark × Nat)} {hle}
    (h : generics ts = .ok ⟨(g, left), hle⟩) : ∃ used written, ts = used ++ left ∧
      DerivesArity written used ∧ written.map (fun w => (w.1, w.2.value)) = g ∧
      ∀ w ∈ written, w.2.IsReadable := by
  cases ts with
  | nil =>
    cases h
    exact ⟨[], none, rfl, .none, rfl, nofun⟩
  | cons m rest =>
    rw [generics] at h
    split at h
    · cases h
      exact ⟨[], none, rfl, .none, rfl, nofun⟩
    · next mark hm =>
      split at h
      · cases h
      · next number left' hlt hnumber =>
        split at h
        · cases h
        · next n hn =>
          cases h
          obtain ⟨rfl, hk⟩ := expect_eq_ok hnumber
          obtain ⟨hread, hvalue⟩ := numberOf_eq_ok hn
          refine ⟨[m, number], some (mark, number.numeral), rfl, .some hm hk, ?_, ?_⟩
          · rw [Option.map_some, hvalue]
          · intro w hw
            cases hw
            exact hread

theorem derives_of_segment {ts left : List Token} {s : PathSegment} {hlt} :
    segment ts = .ok ⟨(s, left), hlt⟩ → ∃ used tree, ts = used ++ left ∧
      DerivesSegment tree used ∧ tree.converted = s ∧ ∀ g ∈ tree.generics, g.2.IsReadable := by
  fun_cases segment ts with
  | case3 name rest hlt hname g left' hle hg =>
    intro h
    cases h
    obtain ⟨used, rfl, hd⟩ := derives_of_segmentName hname
    obtain ⟨used', written, rfl, hd', rfl, hread⟩ := derives_of_generics hg
    exact ⟨used ++ used', ⟨name, written⟩, (List.append_assoc ..).symm, .mk hd hd', rfl, hread⟩
  | case1 | case2 => nofun

/-- A path that is read is derived, and its numbers are readable. -/
theorem derives_of_path {ts left : List Token} {outer : List PathSegment} {last : PathSegment} {hlt}
    (h : path ts = .ok ⟨((outer, last), left), hlt⟩) : ∃ used trees tree, ts = used ++ left ∧
      DerivesPath trees tree used ∧ trees.map (·.converted) = outer ∧ tree.converted = last ∧
      ∀ s ∈ trees ++ [tree], ∀ g ∈ s.generics, g.2.IsReadable := by
  fun_induction path ts generalizing outer last left with
  | case1 => cases h
  | case2 ts first hlt hfirst =>
    cases h
    obtain ⟨used, tree, hts, hd, rfl, hread⟩ := derives_of_segment hfirst
    refine ⟨used, [], tree, hts, .single hd, rfl, rfl, ?_⟩
    simpa using hread
  | case3 => cases h
  | case4 ts first period rest hlt hfirst hperiod outer' last' left' hlt' hrest ih =>
    cases h
    obtain ⟨used, tree, rfl, hd, rfl, hread⟩ := derives_of_segment hfirst
    obtain ⟨used', trees, tree', rfl, hd', rfl, rfl, hread'⟩ := ih hrest
    refine ⟨used ++ period :: used', tree :: trees, tree', by simp, .cons hd hperiod hd', rfl, rfl, ?_⟩
    intro s hs
    rcases List.mem_cons.mp hs with rfl | hs
    · exact hread
    · exact hread' s hs
  | case5 ts first t rest hlt hfirst ht =>
    cases h
    obtain ⟨used, tree, hts, hd, rfl, hread⟩ := derives_of_segment hfirst
    refine ⟨used, [], tree, hts, .single hd, rfl, rfl, ?_⟩
    simpa using hread

/-! ## Array suffixes -/

theorem derives_of_dimensions {ts left : List Token} {n : Nat} {hlt}
    (h : dimensions ts = .ok ⟨(n, left), hlt⟩) :
    ∃ used, ts = used ++ left ∧ DerivesDimensions n used := by
  fun_induction dimensions ts generalizing n left with
  | case1 => cases h
  | case2 => cases h
  | case3 ts number rest hlt hnumber colon hlt' hcolon =>
    cases h
    obtain ⟨rfl, hn⟩ := expect_eq_ok hnumber
    obtain ⟨rfl, hc⟩ := expect_eq_ok hcolon
    exact ⟨[number, colon], rfl, .single hn hc⟩
  | case4 => cases h
  | case5 ts number rest hlt hnumber colon comma rest' hlt' hcolon hcomma n' left' hlt'' hmore ih =>
    cases h
    obtain ⟨rfl, hn⟩ := expect_eq_ok hnumber
    obtain ⟨rfl, hc⟩ := expect_eq_ok hcolon
    obtain ⟨used, rfl, hd⟩ := ih hmore
    exact ⟨number :: colon :: comma :: used, rfl, .cons hn hc hcomma hd⟩
  | case6 ts number rest hlt hnumber colon t rest' hlt' hcolon ht =>
    cases h
    obtain ⟨rfl, hn⟩ := expect_eq_ok hnumber
    obtain ⟨rfl, hc⟩ := expect_eq_ok hcolon
    exact ⟨[number, colon], rfl, .single hn hc⟩

theorem derives_of_arrayBody {ts left : List Token} {n : Nat} {hlt}
    (h : arrayBody ts = .ok ⟨(n, left), hlt⟩) :
    ∃ used, ts = used ++ left ∧ ∀ l, l.kind = .leftBracket → DerivesArray n (l :: used) := by
  rw [arrayBody] at h
  split at h
  · split at h
    · cases h
    · next r left' hlt' hr =>
      cases h
      obtain ⟨rfl, hk⟩ := expect_eq_ok hr
      exact ⟨[r], rfl, fun l hl => .empty hl hk⟩
  · split at h
    · cases h
    · next n' rest hlt' hn =>
      split at h
      · cases h
      · next r left' hlt'' hr =>
        cases h
        obtain ⟨used, rfl, hd⟩ := derives_of_dimensions hn
        obtain ⟨rfl, hk⟩ := expect_eq_ok hr
        exact ⟨used ++ [r], by simp, fun l hl => .dimensions hl hd hk⟩

theorem derives_of_arrays {ts left : List Token} {ns : List Int} {hle}
    (h : arrays ts = .ok ⟨(ns, left), hle⟩) : ∃ used written, ts = used ++ left ∧
      DerivesArrays written used ∧ written.map (fun n : Nat => (n : Int)) = ns := by
  fun_induction arrays ts generalizing ns left with
  | case1 =>
    cases h
    exact ⟨[], [], rfl, .nil, rfl⟩
  | case2 => cases h
  | case3 => cases h
  | case4 l rest hl n rest' hlt hn more left' hle' hmore ih =>
    cases h
    obtain ⟨used, rfl, hd⟩ := derives_of_arrayBody hn
    obtain ⟨used', written, rfl, hd', rfl⟩ := ih hmore
    exact ⟨l :: used ++ used', n :: written, by simp, .cons (hd l hl) hd', rfl⟩
  | case5 =>
    cases h
    exact ⟨[], [], rfl, .nil, rfl⟩

/-! ## Arguments -/

theorem reference_eq_ok {scope : Scope} {mark : Mark} {ts left : List Token} {name : String} {hlt}
    (h : reference scope mark ts = .ok ⟨(name, left), hlt⟩) : ∃ number, ts = number :: left ∧
      number.kind = .number ∧ number.numeral.IsReadable ∧
      (scope.names mark)[number.numeral.value]? = some name := by
  rw [reference] at h
  split at h
  · cases h
  · next number left' hlt' hnumber =>
    split at h
    · cases h
    · next index hindex =>
      split at h
      · next name' hname =>
        cases h
        obtain ⟨rfl, hk⟩ := expect_eq_ok hnumber
        obtain ⟨hread, hvalue⟩ := numberOf_eq_ok hindex
        exact ⟨number, rfl, hk, hread, by rw [hvalue, hname]⟩
      · cases h

mutual
/-- An argument that is read is derived; its references are names of the scope. -/
theorem derives_of_argument (scope : Scope) (ts : List Token) {left : List Token} {type : TypeRef}
    {hlt} (h : argument scope ts = .ok ⟨(type, left), hlt⟩) : ∃ used tree, ts = used ++ left ∧
      DerivesArgument tree used ∧ tree.read scope = type ∧ scope.Resolves tree.references := by
  rw [argument] at h
  split at h
  · next mark hm =>
    split at h
    · cases h
    · next m rest =>
      split at h
      · cases h
      · next name rest' hlt' hname =>
        split at h
        · cases h
        · next suffixes left' hle hsuffixes =>
          cases h
          obtain ⟨number, rfl, hk, hread, hget⟩ := reference_eq_ok hname
          obtain ⟨used, written, rfl, hd, rfl⟩ := derives_of_arrays hsuffixes
          refine ⟨m :: number :: used, .reference mark number.numeral written, rfl,
            .reference hm hk hd, ?_, ?_⟩
          · rw [ArgumentTree.read, hget, Option.getD_some]
          · intro r hr
            rw [ArgumentTree.references, List.mem_singleton] at hr
            subst hr
            exact ⟨hread, (List.getElem?_eq_some_iff.mp hget).1⟩
  · split at h
    · cases h
    · next names rest hlt' hnames =>
      split at h
      · cases h
      · next suffixes left' hle hsuffixes =>
        cases h
        obtain ⟨used, trees, rfl, hd, rfl, hres⟩ := derives_of_typePath scope ts hnames
        obtain ⟨used', written, rfl, hd', rfl⟩ := derives_of_arrays hsuffixes
        exact ⟨used ++ used', .path trees written, by simp, .path hd hd', rfl, hres⟩
termination_by (ts.length, 2)

/-- A dotted path of names that is read is derived. -/
theorem derives_of_typePath (scope : Scope) (ts : List Token) {left : List Token}
    {names : List TypeName} {hlt} (h : typePath scope ts = .ok ⟨(names, left), hlt⟩) :
    ∃ used trees, ts = used ++ left ∧ DerivesTypePath trees used ∧
      NameTree.readAll scope trees = names ∧ scope.Resolves (NameTree.referencesAll trees) := by
  rw [typePath] at h
  split at h
  · cases h
  · next name hlt' hname =>
    cases h
    obtain ⟨used, tree, hts, hd, rfl, hres⟩ := derives_of_typeName scope ts hname
    exact ⟨used, [tree], hts, .single hd, rfl, by simpa [NameTree.referencesAll] using hres⟩
  · next name t rest hlt' hname =>
    have hlen : rest.length < ts.length := Nat.lt_of_succ_lt hlt'
    obtain ⟨used, tree, hts, hd, rfl, hres⟩ := derives_of_typeName scope ts hname
    split at h
    · next ht =>
      split at h
      · cases h
      · next more left' hlt'' hmore =>
        cases h
        obtain ⟨used', trees, rfl, hd', rfl, hres'⟩ := derives_of_typePath scope rest hmore
        exact ⟨used ++ t :: used', tree :: trees, by simp [hts], .cons hd ht hd', rfl,
          Scope.resolves_append.mpr ⟨hres, hres'⟩⟩
    · cases h
      exact ⟨used, [tree], hts, .single hd, rfl, by simpa [NameTree.referencesAll] using hres⟩
termination_by (ts.length, 1)
decreasing_by
  · decreasing_tactic
  · decreasing_tactic
  · exact Prod.Lex.left _ _ hlen

/-- A name of a type that is read is derived. -/
theorem derives_of_typeName (scope : Scope) (ts : List Token) {left : List Token}
    {name : TypeName} {hlt} (h : typeName scope ts = .ok ⟨(name, left), hlt⟩) :
    ∃ used tree, ts = used ++ left ∧ DerivesTypeName tree used ∧ tree.read scope = name ∧
      scope.Resolves tree.references := by
  rw [typeName] at h
  split at h
  · cases h
  · next t hlt' ht =>
    cases h
    obtain ⟨rfl, hk⟩ := expect_eq_ok ht
    exact ⟨[t], .mk t.text [], rfl, .plain hk, rfl, scope.resolves_nil⟩
  · next t l rest hlt' ht =>
    have hlen : rest.length < ts.length := Nat.lt_of_succ_lt hlt'
    split at h
    · next hl =>
      split at h
      · cases h
      · next arguments rest' hlt'' harguments =>
        split at h
        · cases h
        · next r left' hltr hr =>
          cases h
          obtain ⟨used, trees, hused, hd, rfl, hres⟩ :=
            derives_of_genericArguments scope rest harguments
          obtain ⟨rfl, hk⟩ := expect_eq_ok ht
          obtain ⟨rfl, hkr⟩ := expect_eq_ok hr
          exact ⟨t :: l :: used ++ [r], .mk t.text trees, by simp [hused],
            .generic hk hl hd hkr, rfl, hres⟩
    · cases h
      obtain ⟨rfl, hk⟩ := expect_eq_ok ht
      exact ⟨[t], .mk t.text [], rfl, .plain hk, rfl, scope.resolves_nil⟩
termination_by (ts.length, 0)
decreasing_by exact Prod.Lex.left _ _ hlen

/-- Arguments between braces that are read are derived. -/
theorem derives_of_genericArguments (scope : Scope) (ts : List Token) {left : List Token}
    {types : List TypeRef} {hlt} (h : genericArguments scope ts = .ok ⟨(types, left), hlt⟩) :
    ∃ used trees, ts = used ++ left ∧ DerivesGenericArguments trees used ∧
      ArgumentTree.readAll scope trees = types ∧
      scope.Resolves (ArgumentTree.referencesAll trees) := by
  rw [genericArguments] at h
  split at h
  · cases h
  · next first hlt' hfirst =>
    cases h
    obtain ⟨used, tree, hts, hd, rfl, hres⟩ := derives_of_argument scope ts hfirst
    exact ⟨used, [tree], hts, .single hd, rfl, by simpa [ArgumentTree.referencesAll] using hres⟩
  · next first t rest hlt' hfirst =>
    have hlen : rest.length < ts.length := Nat.lt_of_succ_lt hlt'
    obtain ⟨used, tree, hts, hd, rfl, hres⟩ := derives_of_argument scope ts hfirst
    split at h
    · next ht =>
      split at h
      · cases h
      · next more left' hlt'' hmore =>
        cases h
        obtain ⟨used', trees, rfl, hd', rfl, hres'⟩ := derives_of_genericArguments scope rest hmore
        exact ⟨used ++ t :: used', tree :: trees, by simp [hts], .cons hd ht hd', rfl,
          Scope.resolves_append.mpr ⟨hres, hres'⟩⟩
    · cases h
      exact ⟨used, [tree], hts, .single hd, rfl, by simpa [ArgumentTree.referencesAll] using hres⟩
termination_by (ts.length, 3)
decreasing_by
  · decreasing_tactic
  · decreasing_tactic
  · exact Prod.Lex.left _ _ hlen
end

/-! ## Parameters -/

theorem derives_of_outMark {ts left : List Token} {kind : ParameterKind} {hle}
    (h : outMark ts = ⟨(kind, left), hle⟩) : ∃ used isOut, ts = used ++ left ∧
      (if isOut then ParameterKind.outBit else .none) = kind ∧
      ∀ a us, DerivesArgument a us → DerivesParameter ⟨a, isOut⟩ (us ++ used) := by
  cases ts with
  | nil =>
    cases h
    refine ⟨[], false, rfl, rfl, fun a us ha => ?_⟩
    rw [List.append_nil]
    exact .plain ha
  | cons t rest =>
    rw [outMark] at h
    split at h
    · next ht =>
      cases h
      exact ⟨[t], true, rfl, rfl, fun a us ha => .out ha ht⟩
    · cases h
      refine ⟨[], false, rfl, rfl, fun a us ha => ?_⟩
      rw [List.append_nil]
      exact .plain ha

theorem derives_of_parameter {scope : Scope} {ts rest left : List Token} {type : TypeRef}
    {kind : ParameterKind} {hlt hle} (harg : argument scope ts = .ok ⟨(type, rest), hlt⟩)
    (hout : outMark rest = ⟨(kind, left), hle⟩) : ∃ used tree, ts = used ++ left ∧
      DerivesParameter tree used ∧ tree.read scope = { type, kind } ∧
      scope.Resolves tree.argument.references := by
  obtain ⟨used, tree, rfl, hd, rfl, hres⟩ := derives_of_argument scope ts harg
  obtain ⟨used', isOut, rfl, rfl, hd'⟩ := derives_of_outMark hout
  exact ⟨used ++ used', ⟨tree, isOut⟩, by simp, hd' tree used hd, rfl, hres⟩

theorem derives_of_parameterList {scope : Scope} {ts left : List Token} {list : List Parameter}
    {hlt} (h : parameterList scope ts = .ok ⟨(list, left), hlt⟩) : ∃ used trees,
      ts = used ++ left ∧ DerivesParameterList trees used ∧ trees.map (·.read scope) = list ∧
      scope.Resolves (trees.flatMap (·.argument.references)) := by
  fun_induction parameterList scope ts generalizing list left with
  | case1 => cases h
  | case2 ts type rest hlt' harg kind hle hout =>
    cases h
    obtain ⟨used, tree, hts, hd, hread, hres⟩ := derives_of_parameter harg hout
    exact ⟨used, [tree], hts, .single hd, by simp [hread], by simpa using hres⟩
  | case3 => cases h
  | case4 ts type rest hlt' harg kind t rest' hle hout ht more left' hlt'' hmore ih =>
    cases h
    obtain ⟨used, tree, rfl, hd, hread, hres⟩ := derives_of_parameter harg hout
    obtain ⟨used', trees, rfl, hd', rfl, hres'⟩ := ih hmore
    exact ⟨used ++ t :: used', tree :: trees, by simp, .cons hd ht hd', by simp [hread],
      Scope.resolves_append.mpr ⟨hres, hres'⟩⟩
  | case5 ts type rest hlt' harg kind t rest' hle hout ht =>
    cases h
    obtain ⟨used, tree, hts, hd, hread, hres⟩ := derives_of_parameter harg hout
    exact ⟨used, [tree], hts, .single hd, by simp [hread], by simpa using hres⟩

/-- Parameters that are read are derived; their references are names of the scope. -/
theorem derives_of_parameters {scope : Scope} {ts left : List Token} {list : List Parameter} {hle}
    (h : Grammar.parameters scope ts = .ok ⟨(list, left), hle⟩) : ∃ used trees,
      ts = used ++ left ∧ DerivesParameters trees used ∧
      (trees.getD []).map (·.read scope) = list ∧
      scope.Resolves ((trees.getD []).flatMap (·.argument.references)) := by
  cases ts with
  | nil =>
    cases h
    exact ⟨[], none, rfl, .none, rfl, scope.resolves_nil⟩
  | cons l rest =>
    rw [Grammar.parameters] at h
    split at h
    · next hl =>
      split at h
      · split at h
        · cases h
        · next r left' hlt hr =>
          cases h
          obtain ⟨rfl, hk⟩ := expect_eq_ok hr
          exact ⟨[l, r], some [], rfl, .empty hl hk, rfl, scope.resolves_nil⟩
      · split at h
        · cases h
        · next list' rest' hlt hlist =>
          split at h
          · cases h
          · next r left' hlt' hr =>
            cases h
            obtain ⟨used, trees, rfl, hd, rfl, hres⟩ := derives_of_parameterList hlist
            obtain ⟨rfl, hk⟩ := expect_eq_ok hr
            exact ⟨l :: used ++ [r], some trees, by simp, .list hl hd hk, rfl, hres⟩
    · cases h
      exact ⟨[], none, rfl, .none, rfl, scope.resolves_nil⟩

end ApiDocs.Grammar
