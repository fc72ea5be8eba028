import Mathlib
import ApiDocs.Identifier.MemberId
import ApiDocs.Proofs.Grammar.Identifier
import ApiDocs.Proofs.Logged
import ApiDocs.Proofs.Text.Parts
import ApiDocs.Proofs.Token.Spelling

/-!
# A letter in front of an identifier

A member id is read as a letter for a kind and what stands behind the colon without the blanks at its
end.  An identifier that can be read can also be read there, since no other blanks stand in it than
those that are passed over.  What cannot be read is at fault where it is by itself, moved by what
stands in front of it.

* `MemberId.parse_of_padded`: how a member id is read, with blanks around it;
* `MemberId.parse_of_letter`: an identifier behind a letter;
* `MemberId.exists_parse_eq_error`: a text without a letter and a colon;
* `MemberId.parse_iff_and_offset`: what can be read, and where the faults are;
* `Identifier.parameters_eq_nil_of_parse`: without parentheses there are no parameters.
-/

namespace ApiDocs

open Grammar Text Token

/-! ## Blanks -/

namespace Text

/-- Blanks are what is stripped at the end. -/
theorem exists_eq_stripEnd_append (cs : List Char) :
    ∃ blanks, cs = stripEnd cs ++ blanks ∧ ∀ c ∈ blanks, isBlank c = true := by
  refine ⟨(cs.reverse.takeWhile isBlank).reverse, ?_, fun c hc => ?_⟩
  · rw [stripEnd, ← List.reverse_append, List.takeWhile_append_dropWhile, List.reverse_reverse]
  · exact List.all_eq_true.mp List.all_takeWhile c (List.mem_reverse.mp hc)

theorem symbols_append_of_isPlain (cs : List Char) {ds : List Char} (h : ∀ d ∈ ds, IsPlain d) :
    symbols (cs ++ ds) = symbols cs ++ ds.map .char := by
  induction ds generalizing cs with
  | nil => rw [List.append_nil, List.map_nil, List.append_nil]
  | cons d ds ih =>
    rw [List.forall_mem_cons] at h
    have hrest := ih [] h.2
    rw [List.nil_append] at hrest
    rw [symbols_append_cons h.1, hrest, List.map_cons]
    rfl

/-- The blank characters one by one. -/
def blanks : List Char :=
  blankRanges.flatMap fun r => (List.range' r.1 (r.2 + 1 - r.1)).map Char.ofNat

theorem mem_blanks {c : Char} (h : isBlank c = true) : c ∈ blanks := by
  obtain ⟨r, hr, hin⟩ := List.any_eq_true.mp h
  rw [Bool.and_eq_true, decide_eq_true_eq, decide_eq_true_eq] at hin
  have hmem : c.toNat ∈ List.range' r.1 (r.2 + 1 - r.1) := by
    rw [List.mem_range'_1]
    omega
  rw [blanks, List.mem_flatMap]
  exact ⟨r, hr, List.mem_map.mpr ⟨c.toNat, hmem, Char.ofNat_toNat c⟩⟩

end Text

/-- A blank is passed over, or it is a token of no known kind. -/
theorem Token.isSkipped_or_separates_of_isBlank {c : Char} (h : isBlank c = true) :
    IsPlain c ∧ (isSkipped (.char c) = true ∨ Separates c ∧ punctuation? c = none) := by
  have hplain : blanks.all fun d => decide (IsPlain d) := by decide +kernel
  have hread : blanks.all fun d =>
      isSkipped (.char d) || decide (Separates d ∧ punctuation? d = none) := by
    decide +kernel
  have hc := mem_blanks h
  refine ⟨of_decide_eq_true (List.all_eq_true.mp hplain c hc), ?_⟩
  rcases Bool.or_eq_true_iff.mp (List.all_eq_true.mp hread c hc) with hskipped | hunknown
  · exact .inl hskipped
  · exact .inr (of_decide_eq_true hunknown)

/-- Blanks behind an identifier are passed over. -/
theorem Identifier.parse_stripEnd {text : String} {isMethod : Bool} {x : Identifier}
    (h : Identifier.parse text isMethod = .ok x) :
    Identifier.parse (ofSymbols (symbols (stripEnd text.toList))) isMethod = .ok x := by
  obtain ⟨behind, hsplit, hbehind⟩ := exists_eq_stripEnd_append text.toList
  have hskipped : ∀ c ∈ behind, isSkipped (.char c) = true := by
    intro c hc
    have hmem : c ∈ text.toList := by
      rw [hsplit]
      exact List.mem_append_right _ hc
    obtain ⟨hplain, hskipped | ⟨hseparates, hunknown⟩⟩ :=
      isSkipped_or_separates_of_isBlank (hbehind c hc)
    · exact hskipped
    · exact absurd hmem (not_mem_of_parse hseparates hunknown hplain h)
  have hplain : ∀ c ∈ behind, IsPlain c := fun c hc =>
    (isSkipped_or_separates_of_isBlank (hbehind c hc)).1
  have hsymbols : symbols text.toList = symbols (stripEnd text.toList) ++ behind.map .char := by
    rw [← symbols_append_of_isPlain _ hplain, ← hsplit]
  have htokens : written 0 (symbols (ofSymbols (symbols (stripEnd text.toList))).toList) =
      written 0 (symbols text.toList) := by
    rw [symbols_ofSymbols, hsymbols, written_append_of_isSkipped 0]
    intro y hy
    obtain ⟨c, hc, rfl⟩ := List.mem_map.mp hy
    exact hskipped c hc
  obtain ⟨tree, hd, hread, hrange, rfl⟩ := derives_of_parse h
  refine parse_of_derives ?_ hread hrange isMethod
  show DerivesIdentifier tree (written 0 _)
  rw [htokens]
  exact hd

/-- Parameters stand between parentheses. -/
theorem Identifier.parameters_eq_nil_of_parse {text : String} {isMethod : Bool} {x : Identifier}
    (h : Identifier.parse text isMethod = .ok x) (hparens : '(' ∉ text.toList) :
    x.parameters = [] := by
  obtain ⟨tree, hd, -, -, rfl⟩ := derives_of_parse h
  have hnone : ∀ t ∈ (tokenize text).dropLast, t.kind ≠ .leftParen := by
    rintro t ht hk
    refine hparens (mem_of_mem_tokenize (List.dropLast_subset _ ht) ?_)
    rw [hk]
    rfl
  generalize (tokenize text).dropLast = ts at hd hnone
  obtain ⟨-, hps⟩ := hd
  rw [List.forall_mem_append] at hnone
  cases hps with
  | none => rfl
  | empty hl => exact absurd hl (hnone.2 _ List.mem_cons_self)
  | list hl => exact absurd hl (hnone.2 _ List.mem_cons_self)

/-! ## Member ids -/

theorem Identifier.parse_ofSymbols (text : String) (isMethod : Bool) :
    Identifier.parse (ofSymbols (symbols text.toList)) isMethod =
      Identifier.parse text isMethod := by
  rw [Identifier.parse, tokenize, symbols_ofSymbols]
  rfl

namespace MemberId

variable {kind : MemberKind} {whole text : String}

/-- What stands behind the letter and the colon is read without the blanks at its end, and the places
of its faults are moved by what stands in front of it. -/
theorem parse_of_padded {us body vs : List Char}
    (hwhole : whole.toList = us ++ kind.letter :: ':' :: (body ++ vs))
    (hus : ∀ c ∈ us, isBlank c = true) (hvs : ∀ c ∈ vs, isBlank c = true) :
    MemberId.parse whole =
      match Identifier.parse (ofSymbols (symbols (stripEnd body))) (kind == .method) with
      | .error e => .error (e.shift (us.length + 2))
      | .ok x => .ok ⟨kind, x⟩ := by
  have hletter : isBlank kind.letter = false ∧ kind.letter ≠ halfMark := by
    cases kind <;> decide
  have hstart : stripStart whole.toList = kind.letter :: ':' :: (body ++ vs) := by
    rw [hwhole, stripStart_append_of_forall hus, stripStart_cons hletter.1]
  have hstop : stripEnd (kind.letter :: ':' :: (body ++ vs)) =
      kind.letter :: ':' :: stripEnd body := by
    rw [stripEnd_cons hletter.1, stripEnd_cons (by decide), stripEnd_append_of_forall hvs]
  have hsymbols : symbols (kind.letter :: ':' :: stripEnd body) =
      .char kind.letter :: .char ':' :: symbols (stripEnd body) := by
    rw [symbols_cons_of_ne hletter.2, symbols_cons_of_ne (by decide)]
  have hkind : MemberKind.ofSymbol? (.char kind.letter) = some kind :=
    MemberKind.ofLetter?_letter kind
  have hfront : whole.length - (kind.letter :: ':' :: (body ++ vs)).length = us.length := by
    rw [← String.length_toList, hwhole, List.length_append, Nat.add_sub_cancel]
  rw [MemberId.parse, hstart, hstop, hsymbols, hfront]
  cases hread : Identifier.parse (ofSymbols (symbols (stripEnd body))) (kind == .method) with
  | error e => simp only [hkind, hread]
  | ok x => simp only [hkind, hread]

/-- A member id can be read when what stands behind the letter and the colon can. -/
theorem parse_eq_ok_iff_of_padded {us body vs : List Char}
    (hwhole : whole.toList = us ++ kind.letter :: ':' :: (body ++ vs))
    (hus : ∀ c ∈ us, isBlank c = true) (hvs : ∀ c ∈ vs, isBlank c = true) {id : MemberId} :
    MemberId.parse whole = .ok id ↔
      ∃ x, Identifier.parse (ofSymbols (symbols (stripEnd body))) (kind == .method) = .ok x ∧
        id = ⟨kind, x⟩ := by
  rw [parse_of_padded hwhole hus hvs]
  cases Identifier.parse (ofSymbols (symbols (stripEnd body))) (kind == .method) with
  | error e =>
    constructor
    · intro h
      cases h
    · rintro ⟨x, h, -⟩
      cases h
  | ok x =>
    constructor
    · intro h
      cases h
      exact ⟨x, rfl, rfl⟩
    · rintro ⟨x', h, rfl⟩
      cases h
      rfl

theorem parse_eq_ok_iff_of_letter (hwhole : whole.toList = kind.letter :: ':' :: text.toList)
    {id : MemberId} : MemberId.parse whole = .ok id ↔
      ∃ x, Identifier.parse (ofSymbols (symbols (stripEnd text.toList))) (kind == .method) = .ok x ∧
        id = ⟨kind, x⟩ := by
  have hparts : whole.toList = [] ++ kind.letter :: ':' :: (text.toList ++ []) := by
    rw [List.append_nil]
    exact hwhole
  exact parse_eq_ok_iff_of_padded hparts nofun nofun

/-- An identifier that can be read can be read behind a letter, and means the same. -/
theorem parse_of_letter (hwhole : whole.toList = kind.letter :: ':' :: text.toList) {x : Identifier}
    (h : Identifier.parse text (kind == .method) = .ok x) : MemberId.parse whole = .ok ⟨kind, x⟩ :=
  (parse_eq_ok_iff_of_letter hwhole).mpr ⟨x, Identifier.parse_stripEnd h, rfl⟩

/-! ## Places of faults -/

theorem eq_letter_of_ofSymbol? {x : Symbol} (h : MemberKind.ofSymbol? x = some kind) :
    x = .char kind.letter := by
  cases x with
  | half place => cases h
  | char c =>
    have hletter := List.find?_some h
    rw [beq_iff_eq.mp hletter]

/-- Without a letter that is known and a colon, the fault is found behind the blanks in front. -/
theorem exists_parse_eq_error
    (h : ∀ (kind : MemberKind) (rest : List Char),
      (strip whole).toList ≠ kind.letter :: ':' :: rest) : ∃ what, MemberId.parse whole =
      .error (.name ⟨.expected what, (whole.toList.takeWhile isBlank).length⟩) := by
  have hstrip : (strip whole).toList = stripEnd (stripStart whole.toList) := String.toList_ofList
  have hfront : whole.length - (stripStart whole.toList).length =
      (whole.toList.takeWhile isBlank).length := by
    have hsplit : (whole.toList.takeWhile isBlank ++ whole.toList.dropWhile isBlank).length =
        whole.toList.length := congrArg List.length List.takeWhile_append_dropWhile
    rw [List.length_append, String.length_toList] at hsplit
    rw [stripStart, ← hsplit, Nat.add_sub_cancel]
  rw [MemberId.parse, hfront]
  split
  · next letter body hsymbols =>
    split
    · exact ⟨_, rfl⟩
    · next kind hkind =>
      have hletter : kind.letter ≠ halfMark := by cases kind <;> decide
      rw [eq_letter_of_ofSymbol? hkind, ← hstrip] at hsymbols
      obtain ⟨cs, hcs, hrest⟩ := exists_eq_cons_of_symbols hletter hsymbols
      obtain ⟨rest, rfl, -⟩ := exists_eq_cons_of_symbols (by decide) hrest
      exact absurd hcs (h kind rest)
  · exact ⟨_, rfl⟩

/-- Blanks around a member id do not count, and what stands in front of its identifier only moves the
places of faults: by the blanks, the letter and the colon. A text that has no letter and colon in front
is at fault behind its first blanks. -/
theorem parse_iff_and_offset :
    (∀ (kind : MemberKind) (front body back : String), (∀ c ∈ front.toList, isBlank c = true) →
      (∀ c ∈ back.toList, isBlank c = true) →
      (∀ c, body.toList.getLast? = some c → isBlank c = false) →
      (∀ id, MemberId.parse (front ++ String.ofList [kind.letter, ':'] ++ body ++ back) = .ok id ↔
        ∃ x, Identifier.parse body (kind == .method) = .ok x ∧ id = ⟨kind, x⟩) ∧
      ∀ fault offset, Identifier.parse body (kind == .method) = .error (.name ⟨fault, offset⟩) →
        MemberId.parse (front ++ String.ofList [kind.letter, ':'] ++ body ++ back) =
          .error (.name ⟨fault, offset + (front.length + 2)⟩)) ∧
    ∀ text, (∀ (kind : MemberKind) (rest : List Char),
        (strip text).toList ≠ kind.letter :: ':' :: rest) →
      ∃ what, MemberId.parse text =
        .error (.name ⟨.expected what, (text.toList.takeWhile isBlank).length⟩) := by
  refine ⟨fun kind front body back hfront hback hbody => ?_, fun text => exists_parse_eq_error⟩
  have hwhole : (front ++ String.ofList [kind.letter, ':'] ++ body ++ back).toList =
      front.toList ++ kind.letter :: ':' :: (body.toList ++ back.toList) := by
    rw [String.toList_append, String.toList_append, String.toList_append, String.toList_ofList,
      List.append_assoc, List.append_assoc]
    rfl
  have hbody := stripEnd_eq_self hbody
  constructor
  · intro id
    rw [parse_eq_ok_iff_of_padded hwhole hfront hback, hbody, Identifier.parse_ofSymbols]
  · intro fault offset herror
    rw [parse_of_padded hwhole hfront hback, hbody, Identifier.parse_ofSymbols, herror,
      String.length_toList]
    rfl

/-- A control character is stripped at the end and passed over inside, and counts in both places. -/
theorem parse_iff_and_offset_of_control :
    (∃ x, MemberId.parse (" \t" ++ String.ofList [MemberKind.method.letter, ':'] ++ "A\x1f.f" ++
      "\x1f") = .ok ⟨.method, x⟩) ∧
    MemberId.parse ("\x1f" ++ String.ofList [MemberKind.property.letter, ':'] ++ "A\x1f.+" ++ " ") =
      .error (.name ⟨.unrecognized "+", 6⟩) ∧
    ∃ what, MemberId.parse " \x1fX:A" = .error (.name ⟨.expected what, 2⟩) := by
  obtain ⟨hread, hmissing⟩ := parse_iff_and_offset
  have hblank : ∀ text ∈ [" \t", "\x1f", " "], text.toList.all isBlank = true := by decide
  have hfirst := List.all_eq_true.mp (hblank " \t" (by decide))
  have hunit := List.all_eq_true.mp (hblank "\x1f" (by decide))
  have hspace := List.all_eq_true.mp (hblank " " (by decide))
  refine ⟨?_, ?_, ?_⟩
  · obtain ⟨x, hx⟩ : ∃ x, Identifier.parse "A\x1f.f" true = .ok x := exists_eq_ok_of_isOk (by cbv)
    have hends : ∀ c, "A\x1f.f".toList.getLast? = some c → isBlank c = false := by
      intro c hc
      cases hc
      rfl
    exact ⟨x, ((hread .method " \t" "A\x1f.f" "\x1f" hfirst hunit hends).1 _).mpr
      ⟨x, hx, rfl⟩⟩
  · have hends : ∀ c, "A\x1f.+".toList.getLast? = some c → isBlank c = false := by
      intro c hc
      cases hc
      rfl
    exact (hread .property "\x1f" "A\x1f.+" " " hunit hspace hends).2 _ _ (by cbv)
  · refine hmissing " \x1fX:A" ?_
    intro kind rest h
    cases kind <;> cases h

end MemberId

end ApiDocs
