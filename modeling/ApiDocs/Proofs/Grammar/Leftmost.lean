import ApiDocs.Proofs.Grammar.Identifier
import ApiDocs.Proofs.Grammar.ReadParameters
import Mathlib

/-!
# Faults report the leftmost violation

What is wrong with a text that is no member id is said of its first token that is out of place: that no
sentence of the grammar has there, or that is a number with too many digits or out of range.

* `Grammar.Violates`: tokens that are out of place behind others;
* `Grammar.IsReportedAs`: the fault that is reported of such a token;
* `Identifier.parse_error_leftmost`: the fault of a text is that of its first violation.
-/

namespace ApiDocs

open Token

namespace Grammar

/-! ## Violations -/

/-- Tokens that begin a sentence of the grammar. -/
def Viable (ts : List Token) : Prop := ∃ tree us, DerivesIdentifier tree us ∧ ts <+: us

/-- Tokens that begin a sentence of the grammar and the end of the input behind it. -/
def ViableToEnd (ts : List Token) : Prop :=
  ∃ tree us e, DerivesIdentifier tree us ∧ e.kind = .endOfInput ∧ ts <+: us ++ [e]

/-- Up to a token there is the beginning of a sentence, with the token there is none. -/
structure IsMisplaced (before : List Token) (t : Token) : Prop where
  viable : Viable before
  not_viable : ¬ ViableToEnd (before ++ [t])

/-- A number behind a mark that has too many digits to be converted. -/
structure IsOverlong (before : List Token) (t : Token) : Prop where
  isNumber : t.kind = .number
  mark : ∃ front m mark, before = front ++ [m] ∧ m.kind.mark? = some mark
  not_readable : ¬ t.numeral.IsReadable

/-- A number behind a mark, in the parentheses behind a path, that means none of as many generic
parameters as the path declares behind that mark. -/
structure IsOutOfRange (before : List Token) (t : Token) (declared : Nat) : Prop where
  isNumber : t.kind = .number
  path : ∃ us outer last paren inner m mark, before = us ++ paren :: inner ++ [m] ∧
    DerivesPath outer last us ∧ paren.kind = .leftParen ∧ m.kind.mark? = some mark ∧
    declaredCount mark (outer ++ [last]) = declared
  le : declared ≤ t.numeral.value

/-- A token is out of place behind others. -/
def Violates (before : List Token) (t : Token) : Prop :=
  IsMisplaced before t ∨ IsOverlong before t ∨ ∃ declared, IsOutOfRange before t declared

/-- The fault of a token that is out of place behind others. -/
structure IsReportedAs (before : List Token) (t : Token) (e : ParseFault) : Prop where
  unrecognized : IsMisplaced before t → t.kind = .unknown →
    e = .name ⟨.unrecognized t.text, t.start⟩
  expected : IsMisplaced before t → t.kind ≠ .unknown → ∃ what, e = .name ⟨.expected what, t.start⟩
  overlong : IsOverlong before t → e = .longNumber t.length
  outOfRange : ∀ declared, IsOutOfRange before t declared → t.numeral.IsReadable →
    e = .name ⟨.outOfRange t.numeral.value declared, t.start⟩

/-- The fault is that of the first token that is out of place. -/
structure IsLeftmost (before : List Token) (t : Token) (e : ParseFault) : Prop where
  first : ∀ front u back, before = front ++ u :: back → ¬ Violates front u
  violates : Violates before t
  reported : IsReportedAs before t e

variable {ts us left before : List Token} {t : Token} {e : ParseFault}

/-- A fault that has a place has that of the token it is reported of. -/
theorem IsLeftmost.offset_eq {error : NameError} (h : IsLeftmost before t (.name error)) :
    error.offset = t.start := by
  rcases h.violates with hmisplaced | hlong | ⟨declared, hrange⟩
  · by_cases hk : t.kind = .unknown
    · cases h.reported.unrecognized hmisplaced hk
      rfl
    · obtain ⟨what, herror⟩ := h.reported.expected hmisplaced hk
      cases herror
      rfl
  · cases h.reported.overlong hlong
  · by_cases hread : t.numeral.IsReadable
    · cases h.reported.outOfRange declared hrange hread
      rfl
    · obtain ⟨us, -, -, paren, inner, m, mark, hbefore, -, -, hm, -⟩ := hrange.path
      cases h.reported.overlong ⟨hrange.isNumber, ⟨us ++ paren :: inner, m, mark, hbefore, hm⟩, hread⟩

/-! ## Sentences -/

theorem Viable.of_front (h : Viable us) (hbegins : ts <+: us) : Viable ts := by
  obtain ⟨tree, vs, hd, hus⟩ := h
  exact ⟨tree, vs, hd, hbegins.trans hus⟩

theorem Viable.toEnd (h : Viable ts) : ViableToEnd ts := by
  obtain ⟨tree, us, hd, hbegins⟩ := h
  exact ⟨tree, us, endAt 0, hd, rfl, hbegins.trans (List.prefix_append us _)⟩

theorem viable_of_path {ws : List Token} (h : us ++ ws ∈ pathTokens) : Viable us := by
  obtain ⟨outer, last, hpath⟩ := h
  refine ⟨⟨outer, last, none⟩, us ++ ws, ?_, List.prefix_append us ws⟩
  have hd := DerivesIdentifier.mk hpath .none
  rwa [List.append_nil] at hd

/-- What stands behind the path of a member id, up to the end of the input. -/
def tailTokens : Language Token := parametersTokens * oneOf [.endOfInput]

theorem begins_tailTokens : Begins [.leftParen, .endOfInput] tailTokens := by
  intro us hus
  obtain ⟨vs, t, ⟨ps, hps⟩, ht, rfl⟩ := mem_mul_oneOf_single.mp hus
  cases hps with
  | none => exact ⟨t, [], rfl, by simp [ht]⟩
  | empty hl _ => exact ⟨_, _, rfl, by simp [hl]⟩
  | list hl _ _ => exact ⟨_, _, rfl, by simp [hl]⟩

theorem closes_tailTokens : Closes (.period :: segmentGoesOn) tailTokens [] :=
  begins_tailTokens.closes (by decide)

theorem closes_end : Closes [.leftParen] (oneOf [.endOfInput]) [] :=
  (begins_oneOf [.endOfInput]).closes (by decide)

theorem not_viableToEnd_of_blocked (h : Blocked [] (pathTokens * tailTokens) before t) :
    ¬ ViableToEnd (before ++ [t]) := by
  rintro ⟨tree, us, t', hd, hend, hbegins⟩
  have hsentence : us ++ [t'] ∈ pathTokens * tailTokens := by
    rw [tailTokens, ← mul_assoc, ← identifierTokens_eq]
    exact mem_mul_oneOf_single.mpr ⟨us, t', ⟨tree, hd⟩, hend, rfl⟩
  refine h _ hsentence [] (notNext_nil []) ?_
  rwa [List.append_nil]

/-! ## The first violation -/

/-- Tokens among which nothing is out of place. -/
structure IsFaultless (before : List Token) : Prop where
  viable : Viable before
  isReadable : ∀ front m n back mark, before = front ++ m :: n :: back →
    m.kind.mark? = some mark → n.kind = .number → n.numeral.IsReadable
  inRange : ∀ front u back declared, before = front ++ u :: back → ¬ IsOutOfRange front u declared

theorem IsFaultless.not_violates (h : IsFaultless before) :
    ∀ front u back, before = front ++ u :: back → ¬ Violates front u := by
  rintro front u back rfl (hmisplaced | hlong | ⟨declared, hrange⟩)
  · refine hmisplaced.not_viable (h.viable.of_front ⟨back, ?_⟩).toEnd
    rw [List.append_assoc, List.singleton_append]
  · obtain ⟨front', m, mark, rfl, hm⟩ := hlong.mark
    refine hlong.not_readable (h.isReadable front' m u back mark ?_ hm hlong.isNumber)
    rw [List.append_assoc, List.singleton_append]
  · exact h.inRange front u back declared rfl hrange

/-- A token that no sentence has there is reported as what was not expected. -/
theorem IsFaultless.isLeftmost_of_refused (h : IsFaultless before)
    (hblocked : Blocked [] (pathTokens * tailTokens) before t)
    (hmark : ∀ front m mark, before = front ++ [m] → m.kind.mark? = some mark → t.kind ≠ .number)
    (what : Expectation) : IsLeftmost before t (refuse t what) := by
  have hmisplaced : IsMisplaced before t := ⟨h.viable, not_viableToEnd_of_blocked hblocked⟩
  refine ⟨h.not_violates, .inl hmisplaced, ?_, ?_, ?_, ?_⟩
  · intro _ hunknown
    rw [refuse, if_pos hunknown]
  · intro _ hknown
    exact ⟨what, by rw [refuse, if_neg hknown]⟩
  · intro hlong
    obtain ⟨front, m, mark, hbefore, hm⟩ := hlong.mark
    exact absurd hlong.isNumber (hmark front m mark hbefore hm)
  · intro declared hrange _
    obtain ⟨us, -, -, paren, inner, m, mark, hbefore, -, -, hm, -⟩ := hrange.path
    exact absurd hrange.isNumber (hmark _ m mark hbefore hm)

/-- A number behind a mark that does not pass is reported as such. -/
theorem IsFaultless.isLeftmost_of_number (h : IsFaultless before) (hviable : Viable (before ++ [t]))
    (hviolates : IsOverlong before t ∨ ∃ declared, IsOutOfRange before t declared)
    (hlong : IsOverlong before t → e = .longNumber t.length)
    (hrange : ∀ declared, IsOutOfRange before t declared → t.numeral.IsReadable →
      e = .name ⟨.outOfRange t.numeral.value declared, t.start⟩) : IsLeftmost before t e := by
  have hplaced : ¬ IsMisplaced before t := fun hmisplaced => hmisplaced.not_viable hviable.toEnd
  refine ⟨h.not_violates, .inr hviolates, ?_, ?_, hlong, hrange⟩
  · intro hmisplaced
    exact absurd hmisplaced hplaced
  · intro hmisplaced
    exact absurd hmisplaced hplaced

/-! ## Faults in the path -/

theorem not_isOutOfRange_of_path {ws front back : List Token} {u : Token} {declared : Nat}
    (h : us ++ ws ∈ pathTokens) (hus : us = front ++ u :: back) :
    ¬ IsOutOfRange front u declared := by
  intro hrange
  obtain ⟨outer, last, hd⟩ := h
  obtain ⟨vs, outer', last', paren, inner, m, mark, rfl, hd', hparen, -, -⟩ := hrange.path
  -- A path that goes on behind the parenthesis would be two paths.
  have hall : (us ++ ws) ++ [] = vs ++ paren :: (inner ++ m :: u :: (back ++ ws)) := by
    rw [hus]
    simp
  obtain ⟨-, hnil⟩ := hd.unique hd' hall (notNext_nil _) (notNext_of_kind hparen (by decide))
  cases hnil

theorem isFaultless_of_path {ws : List Token} (hbegun : Begun readableCheck t us)
    (h : us ++ ws ∈ pathTokens) : IsFaultless us where
  viable := viable_of_path h
  isReadable := fun _ _ _ _ _ hus hm hn => readableCheck_eq_ok (hbegun.check_eq_ok hus hm hn)
  inRange := fun _ _ _ _ hus => not_isOutOfRange_of_path h hus

/-- The end of the input is behind what is read. -/
theorem exists_end_of_append {used : List Token} (hused : ∀ u ∈ used, u.kind ≠ .endOfInput)
    (hend : ∃ u ∈ used ++ left, u.kind = .endOfInput) : ∃ u ∈ left, u.kind = .endOfInput := by
  obtain ⟨u, hu, hk⟩ := hend
  rcases List.mem_append.mp hu with hu | hu
  · exact absurd hk (hused u hu)
  · exact ⟨u, hu, hk⟩

theorem exists_isLeftmost_of_path
    (h : StopsWith (.period :: segmentGoesOn) readableCheck pathTokens ts e)
    (hend : ∃ u ∈ ts, u.kind = .endOfInput) :
    ∃ before t after, ts = before ++ t :: after ∧ IsLeftmost before t e := by
  cases h with
  | refused used left what tokens error begun viable blocked =>
    subst tokens error
    obtain ⟨ws, hws⟩ := viable
    obtain ⟨u, hu, -⟩ := exists_end_of_append begun.ne_endOfInput hend
    cases left with
    | nil => cases hu
    | cons t after =>
      refine ⟨used, t, after, rfl, ?_⟩
      exact (isFaultless_of_path begun hws).isLeftmost_of_refused
        (blocked.append_left closes_tailTokens) (fun _ _ _ => begun.ne_number) what
  | failed used m n rest mark tokens checked isMark isNumber error viable =>
    subst tokens
    obtain ⟨ws, hws⟩ := viable
    obtain ⟨hlong, rfl⟩ := readableCheck_eq_error error
    have hbegun : Begun readableCheck (endAt 0) (used ++ [m]) := .mark checked isMark (by decide)
    have hsplit : used ++ m :: n :: ws = (used ++ [m]) ++ n :: ws := by simp
    have hsplit' : used ++ m :: n :: ws = ((used ++ [m]) ++ [n]) ++ ws := by simp
    have hoverlong : IsOverlong (used ++ [m]) n := ⟨isNumber, ⟨used, m, mark, rfl, isMark⟩, hlong⟩
    refine ⟨used ++ [m], n, rest, by simp, ?_⟩
    refine (isFaultless_of_path hbegun (hsplit ▸ hws)).isLeftmost_of_number
      (viable_of_path (hsplit' ▸ hws)) (.inl hoverlong) (fun _ => rfl) ?_
    intro declared _ hread
    exact absurd hread hlong

/-! ## Faults behind the path -/

section
variable {outer : List SegmentTree} {last : SegmentTree} {path used ws : List Token}

/-- What is out of range stands behind a mark behind the path, of which there is one only. -/
theorem IsOutOfRange.split {front back : List Token} {u : Token} {declared : Nat}
    (h : IsOutOfRange front u declared) (hpath : DerivesPath outer last path)
    (htail : used ++ ws ∈ tailTokens) (heq : path ++ used = front ++ u :: back) :
    ∃ inner m mark, used = inner ++ m :: u :: back ∧ m.kind.mark? = some mark ∧
      declaredCount mark (outer ++ [last]) = declared := by
  obtain ⟨vs, outer', last', paren, inner, m, mark, rfl, hd, hparen, hm, hcount⟩ := h.path
  have hall : path ++ (used ++ ws) = vs ++ paren :: (inner ++ m :: u :: back ++ ws) := by
    rw [← List.append_assoc, heq]
    simp
  have hnext := closes_tailTokens (used ++ ws) htail [] (notNext_nil [])
  rw [List.append_nil] at hnext
  obtain ⟨⟨rfl, rfl⟩, htailEq⟩ := hpath.unique hd hall hnext (notNext_of_kind hparen (by decide))
  refine ⟨paren :: inner, m, mark, ?_, hm, hcount⟩
  exact List.append_cancel_right htailEq

/-- The names that references may mean behind a path. -/
abbrev scopeBehind (outer : List SegmentTree) (last : SegmentTree) : Scope :=
  Scope.ofPath ((outer ++ [last]).map (·.converted))

theorem viable_of_tail (hpath : DerivesPath outer last path) (htail : used ++ ws ∈ tailTokens)
    (hused : ∀ u ∈ used, u.kind ≠ .endOfInput) : Viable (path ++ used) := by
  obtain ⟨vs, t', ⟨ps, hps⟩, hend, heq⟩ := mem_mul_oneOf_single.mp htail
  refine ⟨⟨outer, last, ps⟩, path ++ vs, .mk hpath hps, (List.prefix_append_right_inj path).mpr ?_⟩
  have hbegins : used <+: vs ++ [t'] := ⟨ws, heq⟩
  rcases List.prefix_concat_iff.mp hbegins with rfl | hbegins
  · exact absurd hend (hused t' (List.mem_append_right vs List.mem_cons_self))
  · exact hbegins

theorem Begun.readable {scope : Scope} (h : Begun (scopeCheck scope) t used) :
    Begun readableCheck t used := by
  refine h.mono fun mark n hn => ?_
  rw [readableCheck, numberOf_of_isReadable (scopeCheck_eq_ok hn).1]
  rfl

theorem isFaultless_of_tail (hpath : DerivesPath outer last path)
    (hchecked : Checked readableCheck path) (htail : used ++ ws ∈ tailTokens)
    (hbegun : Begun (scopeCheck (scopeBehind outer last)) t used) : IsFaultless (path ++ used) where
  viable := viable_of_tail hpath htail hbegun.ne_endOfInput
  isReadable := by
    intro front m n back mark heq hm hn
    exact readableCheck_eq_ok ((hbegun.readable.append hchecked).check_eq_ok heq hm hn)
  inRange := by
    intro front u back declared heq hrange
    obtain ⟨inner, m, mark, hused, hm, rfl⟩ := hrange.split hpath htail heq
    have hlt := (scopeCheck_eq_ok (hbegun.check_eq_ok hused hm hrange.isNumber)).2
    rw [Scope.length_names_ofPath] at hlt
    exact absurd hlt (Nat.not_lt.mpr hrange.le)

/-- A number behind a mark behind the path is out of range when it means no name. -/
theorem isOutOfRange_of_tail {m n : Token} {mark : Mark} (hpath : DerivesPath outer last path)
    (htail : used ++ m :: n :: ws ∈ tailTokens) (hused : ∀ u ∈ used, u.kind ≠ .endOfInput)
    (hm : m.kind.mark? = some mark) (hn : n.kind = .number)
    (hle : declaredCount mark (outer ++ [last]) ≤ n.numeral.value) :
    IsOutOfRange (path ++ (used ++ [m])) n (declaredCount mark (outer ++ [last])) := by
  obtain ⟨paren, more, hhead, hparen⟩ := begins_tailTokens _ htail
  cases used with
  | nil =>
    obtain ⟨rfl, -⟩ := List.cons.inj hhead
    rcases List.mem_pair.mp hparen with hk | hk <;> rw [hk] at hm <;> cases hm
  | cons u inner =>
    obtain ⟨rfl, -⟩ := List.cons.inj hhead
    have hk : u.kind = .leftParen :=
      (List.mem_pair.mp hparen).resolve_right (hused u List.mem_cons_self)
    exact ⟨hn, ⟨path, outer, last, u, inner, m, mark, by simp, hpath, hk, hm, rfl⟩, hle⟩

theorem exists_isLeftmost_of_tail {rest : List Token}
    (hread : Reads (.period :: segmentGoesOn) readableCheck pathTokens path rest)
    (hpath : DerivesPath outer last path)
    (h : StopsWith [] (scopeCheck (scopeBehind outer last)) tailTokens rest e)
    (hend : ∃ u ∈ rest, u.kind = .endOfInput) :
    ∃ before t after, path ++ rest = before ++ t :: after ∧ IsLeftmost before t e := by
  cases h with
  | refused used left what tokens error begun viable blocked =>
    subst tokens error
    obtain ⟨ws, hws⟩ := viable
    obtain ⟨u, hu, -⟩ := exists_end_of_append begun.ne_endOfInput hend
    cases left with
    | nil => cases hu
    | cons t after =>
      refine ⟨path ++ used, t, after, by simp, ?_⟩
      exact (isFaultless_of_tail hpath hread.checked hws begun).isLeftmost_of_refused
        (hread.blocked blocked closes_tailTokens)
        (fun _ _ _ => (begun.readable.append hread.checked).ne_number) what
  | failed used m n rest mark tokens checked isMark isNumber error viable =>
    subst tokens
    obtain ⟨ws, hws⟩ := viable
    have hbegun : Begun (scopeCheck (scopeBehind outer last)) (endAt 0) (used ++ [m]) :=
      .mark checked isMark (by decide)
    have hsplit : used ++ m :: n :: ws = (used ++ [m]) ++ n :: ws := by simp
    have hsplit' : used ++ m :: n :: ws = ((used ++ [m]) ++ [n]) ++ ws := by simp
    have hviable : Viable ((path ++ (used ++ [m])) ++ [n]) := by
      rw [List.append_assoc]
      refine viable_of_tail hpath (hsplit' ▸ hws)
        (List.forall_mem_append.mpr ⟨hbegun.ne_endOfInput, ?_⟩)
      rw [List.forall_mem_singleton, isNumber]
      decide
    have hfaultless := isFaultless_of_tail hpath hread.checked (hsplit ▸ hws) hbegun
    refine ⟨path ++ (used ++ [m]), n, rest, by simp, ?_⟩
    rcases scopeCheck_eq_error error with ⟨hlong, rfl⟩ | ⟨hreadable, hle, rfl⟩
    · have hoverlong : IsOverlong (path ++ (used ++ [m])) n :=
        ⟨isNumber, ⟨path ++ used, m, mark, by simp, isMark⟩, hlong⟩
      refine hfaultless.isLeftmost_of_number hviable (.inl hoverlong) (fun _ => rfl) ?_
      intro declared _ hreadable
      exact absurd hreadable hlong
    · rw [Scope.length_names_ofPath] at hle ⊢
      have hrange := isOutOfRange_of_tail hpath hws checked.ne_endOfInput isMark isNumber hle
      refine hfaultless.isLeftmost_of_number hviable (.inr ⟨_, hrange⟩) ?_ ?_
      · intro hlong
        exact absurd hreadable hlong.not_readable
      · intro declared hrange' _
        have hwhole : path ++ ((used ++ [m]) ++ [n]) = (path ++ (used ++ [m])) ++ n :: [] := by simp
        obtain ⟨inner, m', mark', hused, hm', rfl⟩ :=
          hrange'.split hpath (hsplit' ▸ hws) hwhole
        have hlast : (used ++ [m]) ++ [n] = (inner ++ [m']) ++ [n] := by simpa using hused
        obtain ⟨hfront, -⟩ := List.append_inj' hlast rfl
        obtain ⟨-, hm⟩ := List.append_inj' hfront rfl
        cases hm
        rw [isMark] at hm'
        cases hm'
        rfl

end

/-- What stands behind a path and its parameters has to be the end of the input. -/
theorem stopsWith_of_end {scope : Scope} {rest rest' : List Token}
    (hread : ReadsTo [.leftParen] (scopeCheck scope) parametersTokens rest rest')
    (h : expect .endOfInput .endOfName rest' = .error e) (hend : ∃ u ∈ rest, u.kind = .endOfInput) :
    StopsWith [] (scopeCheck scope) tailTokens rest e := by
  have hne : rest' ≠ [] := by
    obtain ⟨used, rfl, hused⟩ := hread
    obtain ⟨u, hu, -⟩ := exists_end_of_append hused.checked.ne_endOfInput hend
    exact List.ne_nil_of_mem hu
  obtain ⟨herror, hkind⟩ := expect_eq_error h
  have hother : (ahead rest').kind ∉ [.endOfInput] := by
    rw [List.mem_singleton]
    exact hkind hne
  rw [herror]
  exact hread.stops ((begins_oneOf [.endOfInput]).stops hother (exists_mem_oneOf .endOfInput) .endOfName)
    closes_end

/-- Tokens up to the end of the input that write no identifier have a first violation, which is
reported. -/
theorem exists_isLeftmost {isMethod : Bool} (h : Identifier.parseTokens isMethod ts = .error e)
    (hend : ∃ u ∈ ts, u.kind = .endOfInput) :
    ∃ before t after, ts = before ++ t :: after ∧ IsLeftmost before t e := by
  rw [Identifier.parseTokens] at h
  split at h
  · next e' hpath =>
    cases h
    exact exists_isLeftmost_of_path ((decides_path ts).stopsWith hpath) hend
  · next outer last rest hlt hpath =>
    obtain ⟨used, rfl, hread⟩ := (decides_path ts).readsTo hpath
    obtain ⟨used', trees, tree, hused, hd, rfl, rfl, -⟩ := derives_of_path hpath
    obtain rfl := List.append_cancel_right hused
    have hrest := exists_end_of_append hread.checked.ne_endOfInput hend
    have hscope := IdentifierTree.map_converted_segments ⟨trees, tree, none⟩
    refine exists_isLeftmost_of_tail hread hd ?_ hrest
    rw [scopeBehind]
    split at h
    · next e' hps =>
      cases h
      rw [hscope] at hps
      exact ((decides_parameters _ rest).stopsWith hps).append_left (exists_mem_oneOf .endOfInput)
        closes_end
    · next list rest' hle hps =>
      split at h
      · next e' hexpect =>
        cases h
        rw [hscope] at hps
        exact stopsWith_of_end ((decides_parameters _ rest).readsTo hps) hexpect hrest
      · cases h

end Grammar

open Grammar

/-- A text that is no member id has a first token that is out of place, and the fault is that of this
token, at a place in the text. -/
theorem Identifier.parse_error_leftmost {text : String} {isMethod : Bool} {e : ParseFault}
    (h : Identifier.parse text isMethod = .error e) :
    (∃ before t after, tokenize text = before ++ t :: after ∧ IsLeftmost before t e) ∧
      ∀ error, e = .name error → error.offset ≤ (Text.symbols text.toList).length := by
  have hend : ∃ u ∈ tokenize text, u.kind = .endOfInput := by
    rw [tokenize_eq]
    exact ⟨_, List.mem_append_right _ List.mem_cons_self, rfl⟩
  obtain ⟨before, t, after, htokens, hleftmost⟩ := exists_isLeftmost h hend
  refine ⟨⟨before, t, after, htokens, hleftmost⟩, ?_⟩
  rintro error rfl
  have hmem : t ∈ tokenize text := by
    rw [htokens]
    exact List.mem_append_right before List.mem_cons_self
  have hstart := start_le_of_mem_scan 0 (Text.symbols text.toList) t hmem
  rw [Nat.zero_add] at hstart
  rw [hleftmost.offset_eq]
  exact hstart

theorem Identifier.parse_error_leftmost_of_unrecognized :
    Identifier.parse "N`1.#+" = .error (.name ⟨.unrecognized "+", 5⟩) ∧
    (∃ before t after, tokenize "N`1.#+" = before ++ t :: after ∧
      IsLeftmost before t (.name ⟨.unrecognized "+", 5⟩)) ∧
    ∀ error, ParseFault.name ⟨.unrecognized "+", 5⟩ = .name error →
      error.offset ≤ (Text.symbols "N`1.#+".toList).length := by
  have herror : Identifier.parse "N`1.#+" = .error (.name ⟨.unrecognized "+", 5⟩) := by cbv
  exact ⟨herror, parse_error_leftmost herror⟩

end ApiDocs
