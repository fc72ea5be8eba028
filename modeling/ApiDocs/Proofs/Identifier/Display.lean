import Mathlib
import ApiDocs.Proofs.Grammar.Identifier
import ApiDocs.Proofs.Identifier.PathText
import ApiDocs.Proofs.Logged
import ApiDocs.Proofs.Token.Spelling

/-!
# Identifiers displayed as they are written

The text of an identifier that is read is the text that it is read from, but for how generic arguments,
arrays and lists are written.  That holds where every level is written out: no reference, no number of
generic parameters, no name of a constructor and no sign for passing out.

* `displayed`: how a text is displayed;
* `Displays`: how a part of a text is displayed, whatever stands behind it;
* `Grammar.DerivesArgument.displays`: an argument is displayed as the type that it means;
* `Identifier.text_eq_displayed`: an identifier is displayed as it is written.
-/

namespace ApiDocs

open Text Token

/-! ## Displaying -/

/-- The rank of an array suffix: the number of its dimensions, each of which has a colon. -/
def suffixRank (body : List Char) : Nat := body.count ':'

/-- How the text of a member id is displayed. Braces become angle brackets. Between the brackets of an
array suffix stand as many commas as separate its dimensions, and every other comma has a blank behind
it. -/
def displayed : List Char → List Char
  | [] => []
  | c :: cs =>
    if c = '{' then '<' :: displayed cs
    else if c = '}' then '>' :: displayed cs
    else if c = ',' then ',' :: ' ' :: displayed cs
    else if c = '[' then
      '[' :: (List.replicate (suffixRank (cs.takeWhile (· != ']')) - 1) ','
        ++ displayed (cs.dropWhile (· != ']')))
    else c :: displayed cs
termination_by cs => cs.length
decreasing_by
  all_goals simp only [List.length_cons]
  · omega
  · omega
  · omega
  · exact Nat.lt_succ_of_le (List.dropWhile_sublist _).length_le
  · omega

/-- The characters that are displayed in another way. -/
def respelled : List Char := ['{', '}', ',', '[']

theorem displayed_cons_of_not_mem {c : Char} (hc : c ∉ respelled) (cs : List Char) :
    displayed (c :: cs) = c :: displayed cs := by
  simp only [respelled, List.mem_cons, List.not_mem_nil, or_false, not_or] at hc
  rw [displayed, if_neg hc.1, if_neg hc.2.1, if_neg hc.2.2.1, if_neg hc.2.2.2]

/-- How a part of a text is displayed, whatever stands behind it. -/
def Displays (cs ds : List Char) : Prop := ∀ rest, displayed (cs ++ rest) = ds ++ displayed rest

namespace Displays

theorem nil : Displays [] [] := fun _ => rfl

theorem append {cs cs' ds ds' : List Char} (h : Displays cs ds) (h' : Displays cs' ds') :
    Displays (cs ++ cs') (ds ++ ds') := by
  intro rest
  rw [List.append_assoc, h, h', List.append_assoc]

theorem displayed_eq {cs ds : List Char} (h : Displays cs ds) : displayed cs = ds := by
  have hall := h []
  rw [List.append_nil, displayed, List.append_nil] at hall
  exact hall

theorem of_forall {cs : List Char} (h : ∀ c ∈ cs, c ∉ respelled) : Displays cs cs := by
  intro rest
  induction cs with
  | nil => rfl
  | cons c cs ih =>
    obtain ⟨hc, hcs⟩ := List.forall_mem_cons.mp h
    rw [List.cons_append, displayed_cons_of_not_mem hc, ih hcs, List.cons_append]

theorem char {c : Char} (h : c ∉ respelled) : Displays [c] [c] :=
  .of_forall (List.forall_mem_singleton.mpr h)

theorem leftBrace : Displays ['{'] ['<'] := by
  intro rest
  rw [List.cons_append, displayed, if_pos rfl]
  rfl

theorem rightBrace : Displays ['}'] ['>'] := by
  intro rest
  rw [List.cons_append, displayed, if_neg (by decide), if_pos rfl]
  rfl

theorem comma : Displays [','] [',', ' '] := by
  intro rest
  rw [List.cons_append, displayed, if_neg (by decide), if_neg (by decide), if_pos rfl]
  rfl

/-- A list goes on behind a separator. -/
theorem intercalate_cons {cs vs us d sep : List Char} {ds : List (List Char)} (h : Displays cs d)
    (hsep : Displays vs sep) (hne : ds ≠ []) (hmore : Displays us (sep.intercalate ds)) :
    Displays (cs ++ (vs ++ us)) (sep.intercalate (d :: ds)) := by
  rw [List.intercalate_cons_of_ne_nil hne, List.append_assoc]
  exact h.append (hsep.append hmore)

/-- An array suffix is displayed by its rank. -/
theorem suffix {body : List Char} (h : ']' ∉ body) : Displays ('[' :: (body ++ [']']))
    ('[' :: (List.replicate (suffixRank body - 1) ',' ++ [']'])) := by
  intro rest
  have hbody : ∀ c ∈ body, (c != ']') = true := by
    intro c hc
    refine bne_iff_ne.mpr ?_
    rintro rfl
    exact h hc
  have htake : (body ++ ']' :: rest).takeWhile (· != ']') = body := by
    rw [List.takeWhile_append_of_pos hbody, List.takeWhile_cons_of_neg (by decide), List.append_nil]
  have hdrop : (body ++ ']' :: rest).dropWhile (· != ']') = ']' :: rest := by
    rw [List.dropWhile_append_of_pos hbody, List.dropWhile_cons_of_neg (by decide)]
  have hbracket : displayed (']' :: rest) = ']' :: displayed rest :=
    displayed_cons_of_not_mem (by decide) rest
  rw [List.cons_append, List.append_assoc, List.singleton_append, displayed, if_neg (by decide),
    if_neg (by decide), if_neg (by decide), if_pos rfl, htake, hdrop, hbracket]
  simp only [List.cons_append, List.append_assoc, List.nil_append]

end Displays

/-! ## Ordinary tokens -/

/-- The characters that tokens spell. -/
def spelled (ts : List Token) : List Char := ts.flatMap (·.text.toList)

@[simp] theorem spelled_nil : spelled [] = [] := rfl

@[simp] theorem spelled_cons (t : Token) (ts : List Token) :
    spelled (t :: ts) = t.text.toList ++ spelled ts := rfl

@[simp] theorem spelled_append (ts us : List Token) : spelled (ts ++ us) = spelled ts ++ spelled us :=
  List.flatMap_append

/-- A token with a text of its kind that writes no number of generic parameters, no reference, no
special name and no passing out. -/
structure IsOrdinary (t : Token) : Prop where
  covers : Covers t.kind t.text.toList
  kind_not_mem : t.kind ∉ [.sharp, .doubleSharp, .backtick, .doubleBacktick]
  kind_ne_atSign : t.kind ≠ .atSign

theorem IsOrdinary.not_mark {t : Token} (h : IsOrdinary t) {mark : Mark} :
    t.kind.mark? ≠ some mark := by
  have hkind := h.kind_not_mem
  revert hkind
  cases t.kind <;> simp [TokenKind.mark?]

theorem not_mem_respelled_of_isNameRest {c : Char} (h : isNameRest c = true) : c ∉ respelled := by
  intro hmem
  simp only [respelled, List.mem_cons, List.not_mem_nil, or_false] at hmem
  rcases hmem with rfl | rfl | rfl | rfl <;> exact absurd h (by decide)

theorem IsOrdinary.displays_name {t : Token} (h : IsOrdinary t) (hk : t.kind = .name) :
    Displays t.text.toList t.text.toList := by
  have hcovers := h.covers
  rw [hk] at hcovers
  exact .of_forall fun c hc => not_mem_respelled_of_isNameRest (hcovers.isNameRest c hc)

namespace Grammar

/-! ## Arrays -/

theorem suffixRank_append (xs ys : List Char) : suffixRank (xs ++ ys) = suffixRank xs + suffixRank ys :=
  List.count_append

/-- A dimension is written with one colon. -/
theorem suffixRank_spelled_pair {number colon : Token} (hnumber : number.kind = .number)
    (hcolon : colon.kind = .colon) (hdigits : Covers number.kind number.text.toList)
    (hsign : Covers colon.kind colon.text.toList) :
    suffixRank (spelled [number, colon]) = 1 ∧ ']' ∉ spelled [number, colon] := by
  rw [hnumber] at hdigits
  have hnot : ∀ {d : Char}, isDigit d = false → d ∉ number.text.toList := by
    intro d hd hmem
    rw [hdigits.isDigit d hmem] at hd
    cases hd
  have hrank : suffixRank number.text.toList = 0 := List.count_eq_zero_of_not_mem (hnot (by decide))
  rw [spelled_cons, spelled_cons, hsign.toList_eq_of_kind hcolon ':' rfl, suffixRank_append, hrank]
  refine ⟨rfl, ?_⟩
  rw [List.mem_append, not_or]
  exact ⟨hnot (by decide), by decide⟩

/-- There are as many colons as dimensions. -/
theorem DerivesDimensions.suffixRank_spelled {n : Nat} {ts : List Token}
    (h : DerivesDimensions n ts) (hts : ∀ t ∈ ts, Covers t.kind t.text.toList) :
    suffixRank (spelled ts) = n ∧ ']' ∉ spelled ts := by
  induction h with
  | single hnumber hcolon =>
    rw [List.forall_mem_cons, List.forall_mem_singleton] at hts
    exact suffixRank_spelled_pair hnumber hcolon hts.1 hts.2
  | @cons number colon comma n ts hnumber hcolon hcomma _ ih =>
    rw [List.forall_mem_cons, List.forall_mem_cons, List.forall_mem_cons] at hts
    obtain ⟨hdigits, hsign, hcommaSign, hmore⟩ := hts
    obtain ⟨hone, hnotOne⟩ := suffixRank_spelled_pair hnumber hcolon hdigits hsign
    obtain ⟨hrank, hnot⟩ := ih hmore
    have hsplit : spelled (number :: colon :: comma :: ts) =
        spelled [number, colon] ++ (',' :: spelled ts) := by
      simp [hcommaSign.toList_eq_of_kind hcomma ',' rfl]
    have hcommaRank : suffixRank (',' :: spelled ts) = suffixRank (spelled ts) :=
      List.count_cons_of_ne (by decide)
    rw [hsplit, suffixRank_append, hone, hcommaRank, hrank, List.mem_append, List.mem_cons, not_or,
      not_or]
    exact ⟨Nat.add_comm 1 n, hnotOne, by decide, hnot⟩

theorem DerivesArray.displays {n : Nat} {ts : List Token} (h : DerivesArray n ts)
    (hts : ∀ t ∈ ts, IsOrdinary t) : Displays (spelled ts) (arrayText n).toList := by
  rw [toList_arrayText]
  cases h with
  | @empty l r hl hr =>
    rw [List.forall_mem_cons, List.forall_mem_singleton] at hts
    rw [spelled_cons, spelled_cons, hts.1.covers.toList_eq_of_kind hl '[' rfl,
      hts.2.covers.toList_eq_of_kind hr ']' rfl]
    exact .suffix List.not_mem_nil
  | @dimensions l r n ts hl hdimensions hr =>
    rw [List.forall_mem_append, List.forall_mem_cons, List.forall_mem_singleton] at hts
    obtain ⟨⟨hleft, hmiddle⟩, hright⟩ := hts
    obtain ⟨hrank, hnot⟩ := hdimensions.suffixRank_spelled fun t ht => (hmiddle t ht).covers
    have hcommas : ((n : Int) - 1).toNat = suffixRank (spelled ts) - 1 := by omega
    rw [spelled_append, spelled_cons, spelled_cons, hleft.covers.toList_eq_of_kind hl '[' rfl,
      hright.covers.toList_eq_of_kind hr ']' rfl, hcommas]
    exact .suffix hnot

theorem DerivesArrays.displays {ns : List Nat} {ts : List Token} (h : DerivesArrays ns ts)
    (hts : ∀ t ∈ ts, IsOrdinary t) : Displays (spelled ts)
      ((ns.map fun n : Nat => (n : Int)).flatMap fun n => (arrayText n).toList) := by
  induction h with
  | nil => exact .nil
  | cons harray _ ih =>
    rw [List.forall_mem_append] at hts
    rw [spelled_append, List.map_cons, List.flatMap_cons]
    exact (harray.displays hts.1).append (ih hts.2)

/-! ## Arguments -/

theorem DerivesTypePath.readAll_ne_nil {trees : List NameTree} {ts : List Token}
    (h : DerivesTypePath trees ts) (scope : Scope) : NameTree.readAll scope trees ≠ [] := by
  cases h <;> exact List.cons_ne_nil _ _

theorem DerivesGenericArguments.readAll_ne_nil {trees : List ArgumentTree} {ts : List Token}
    (h : DerivesGenericArguments trees ts) (scope : Scope) :
    ArgumentTree.readAll scope trees ≠ [] := by
  cases h <;> exact List.cons_ne_nil _ _

mutual
/-- An argument without a reference is displayed as the type that it means. -/
theorem DerivesArgument.displays {a : ArgumentTree} {ts : List Token} (h : DerivesArgument a ts)
    (hts : ∀ t ∈ ts, IsOrdinary t) (scope : Scope) :
    Displays (spelled ts) (a.read scope).text.toList := by
  match h with
  -- The text of a reference is the name that it means, which is not what the tokens spell.
  | .reference hm _ _ => exact absurd hm (hts _ List.mem_cons_self).not_mark
  | .path hpath harrays =>
    rw [List.forall_mem_append] at hts
    rw [ArgumentTree.read, TypeRef.toList_text_mk, spelled_append]
    exact (hpath.displays hts.1 scope).append (harrays.displays hts.2)

theorem DerivesTypePath.displays {trees : List NameTree} {ts : List Token}
    (h : DerivesTypePath trees ts) (hts : ∀ t ∈ ts, IsOrdinary t) (scope : Scope) :
    Displays (spelled ts)
      (['.'].intercalate ((NameTree.readAll scope trees).map fun n => n.text.toList)) := by
  match h with
  | .single hname =>
    rw [NameTree.readAll, NameTree.readAll, List.map_singleton, List.intercalate_singleton]
    exact hname.displays hts scope
  | .cons hname hperiod hmore =>
    rw [List.forall_mem_append, List.forall_mem_cons] at hts
    obtain ⟨hfirst, hsign, hrest⟩ := hts
    rw [NameTree.readAll, List.map_cons, spelled_append, spelled_cons,
      hsign.covers.toList_eq_of_kind hperiod '.' rfl]
    exact (hname.displays hfirst scope).intercalate_cons (.char (by decide))
      (mt List.map_eq_nil_iff.mp (hmore.readAll_ne_nil scope)) (hmore.displays hrest scope)

theorem DerivesTypeName.displays {tree : NameTree} {ts : List Token} (h : DerivesTypeName tree ts)
    (hts : ∀ t ∈ ts, IsOrdinary t) (scope : Scope) :
    Displays (spelled ts) (tree.read scope).text.toList := by
  match h with
  | @DerivesTypeName.plain t hk =>
    rw [NameTree.read, ArgumentTree.readAll, TypeName.text, TypeRef.texts, angled, String.append_empty,
      spelled_cons, spelled_nil, List.append_nil]
    exact (hts t List.mem_cons_self).displays_name hk
  | @DerivesTypeName.generic t l r arguments ts hk hl harguments hr =>
    rw [List.forall_mem_append, List.forall_mem_cons, List.forall_mem_cons,
      List.forall_mem_singleton] at hts
    obtain ⟨⟨hname, hleft, hmiddle⟩, hright⟩ := hts
    obtain ⟨first, more, hread⟩ := List.exists_cons_of_ne_nil (harguments.readAll_ne_nil scope)
    have hmore := harguments.displays hmiddle scope
    rw [NameTree.read, TypeName.text, TypeRef.texts_eq_map, String.toList_append, hread,
      toList_angled_cons, ← hread, spelled_append, spelled_cons, spelled_cons, spelled_cons,
      hleft.covers.toList_eq_of_kind hl '{' rfl, hright.covers.toList_eq_of_kind hr '}' rfl,
      spelled_nil, List.append_nil, List.append_assoc]
    exact (hname.displays_name hk).append
      (Displays.leftBrace.append (hmore.append Displays.rightBrace))

theorem DerivesGenericArguments.displays {trees : List ArgumentTree} {ts : List Token}
    (h : DerivesGenericArguments trees ts) (hts : ∀ t ∈ ts, IsOrdinary t) (scope : Scope) :
    Displays (spelled ts) ([',', ' '].intercalate
      ((ArgumentTree.readAll scope trees).map fun t => t.text.toList)) := by
  match h with
  | .single harg =>
    rw [ArgumentTree.readAll, ArgumentTree.readAll, List.map_singleton, List.intercalate_singleton]
    exact harg.displays hts scope
  | .cons harg hcomma hmore =>
    rw [List.forall_mem_append, List.forall_mem_cons] at hts
    obtain ⟨hfirst, hsign, hrest⟩ := hts
    rw [ArgumentTree.readAll, List.map_cons, spelled_append, spelled_cons,
      hsign.covers.toList_eq_of_kind hcomma ',' rfl]
    exact (harg.displays hfirst scope).intercalate_cons .comma
      (mt List.map_eq_nil_iff.mp (hmore.readAll_ne_nil scope)) (hmore.displays hrest scope)
end

/-! ## Parameters -/

theorem DerivesParameter.displays {p : ParameterTree} {ts : List Token} (h : DerivesParameter p ts)
    (hts : ∀ t ∈ ts, IsOrdinary t) (scope : Scope) :
    Displays (spelled ts) (p.read scope).text.toList := by
  cases h with
  | @plain a ts hargument =>
    have htext : (ParameterTree.read scope ⟨a, false⟩).text = (a.read scope).text :=
      Identifier.text_parameter_mk _
    rw [htext]
    exact hargument.displays hts scope
  | @out a sign ts _ hk =>
    have hsign := List.mem_append_right ts (List.mem_singleton_self sign)
    exact absurd hk (hts sign hsign).kind_ne_atSign

theorem DerivesParameterList.displays {ps : List ParameterTree} {ts : List Token}
    (h : DerivesParameterList ps ts) (hts : ∀ t ∈ ts, IsOrdinary t) (scope : Scope) :
    ps ≠ [] ∧ Displays (spelled ts)
      ([',', ' '].intercalate (ps.map fun p => (p.read scope).text.toList)) := by
  induction h with
  | single hp =>
    rw [List.map_singleton, List.intercalate_singleton]
    exact ⟨List.cons_ne_nil _ _, hp.displays hts scope⟩
  | cons hp hcomma _ ih =>
    rw [List.forall_mem_append, List.forall_mem_cons] at hts
    obtain ⟨hfirst, hsign, hrest⟩ := hts
    obtain ⟨hne, hmore⟩ := ih hrest
    refine ⟨List.cons_ne_nil _ _, ?_⟩
    rw [List.map_cons, spelled_append, spelled_cons, hsign.covers.toList_eq_of_kind hcomma ',' rfl]
    exact (hp.displays hfirst scope).intercalate_cons .comma (mt List.map_eq_nil_iff.mp hne) hmore

/-- Parentheses are displayed as they are, and a pair is added where there are none. -/
theorem DerivesParameters.displayed_spelled {ps : Option (List ParameterTree)} {ts : List Token}
    (h : DerivesParameters ps ts) (hts : ∀ t ∈ ts, IsOrdinary t) (scope : Scope) :
    displayed (spelled ts) ++ (if '(' ∈ spelled ts then [] else ['(', ')']) =
      ("(" ++ ", ".intercalate (((ps.getD []).map (·.read scope)).map Parameter.text) ++
        ")").toList := by
  have hchars : ("(" ++ ", ".intercalate (((ps.getD []).map (·.read scope)).map Parameter.text) ++
      ")").toList = '(' :: ([',', ' '].intercalate
        ((ps.getD []).map fun p => (p.read scope).text.toList) ++ [')']) := by
    rw [String.toList_append, String.toList_append, String.toList_intercalate, List.map_map,
      List.map_map]
    rfl
  rw [hchars]
  have hleftParen : Displays ['('] ['('] := .char (by decide)
  have hrightParen : Displays [')'] [')'] := .char (by decide)
  cases h with
  | none => rw [spelled_nil, Displays.nil.displayed_eq]; rfl
  | @empty l r hl hr =>
    rw [List.forall_mem_cons, List.forall_mem_singleton] at hts
    rw [spelled_cons, spelled_cons, hts.1.covers.toList_eq_of_kind hl '(' rfl,
      hts.2.covers.toList_eq_of_kind hr ')' rfl]
    exact congrArg (· ++ []) (hleftParen.append hrightParen).displayed_eq
  | @list l r ps ts hl hlist hr =>
    rw [List.forall_mem_append, List.forall_mem_cons, List.forall_mem_singleton] at hts
    obtain ⟨⟨hleft, hmiddle⟩, hright⟩ := hts
    have hwhole := hleftParen.append ((hlist.displays hmiddle scope).2.append hrightParen)
    rw [spelled_append, spelled_cons, spelled_cons, hleft.covers.toList_eq_of_kind hl '(' rfl,
      hright.covers.toList_eq_of_kind hr ')' rfl, spelled_nil, List.append_nil, List.append_assoc,
      hwhole.displayed_eq, if_pos (List.mem_append_left _ (List.mem_singleton_self _)),
      List.append_nil]
    rfl

/-! ## Paths -/

/-- A level of ordinary tokens is a name that is written as it is. -/
theorem DerivesSegment.eq_of_ordinary {s : SegmentTree} {ts : List Token} (h : DerivesSegment s ts)
    (hts : ∀ t ∈ ts, IsOrdinary t) : (s.name.flags = .none ∧ s.generics = none) ∧
      s.name.text.toList = spelled ts ∧ ∀ c ∈ spelled ts, isNameRest c = true := by
  obtain @⟨name, generics, ts, us, hname, hgenerics⟩ := h
  rw [List.forall_mem_append] at hts
  obtain ⟨hts, hus⟩ := hts
  have hsharp : ∀ {t : Token}, t ∈ ts → t.kind ≠ .sharp ∧ t.kind ≠ .doubleSharp := by
    intro t ht
    have hkind := (hts t ht).kind_not_mem
    simp only [List.mem_cons, not_or] at hkind
    exact ⟨hkind.1, hkind.2.1⟩
  cases hgenerics with
  | some hm _ => exact absurd hm (hus _ List.mem_cons_self).not_mark
  | none =>
    cases hname with
    | special hk _ => exact absurd hk (hsharp List.mem_cons_self).1
    | classSpecial hk _ => exact absurd hk (hsharp List.mem_cons_self).2
    | hashed hhashed =>
      cases hhashed with
      | cons _ hk _ => exact absurd hk (hsharp (List.mem_cons_of_mem _ List.mem_cons_self)).1
      | @single t hk =>
        have hcovers := (hts t List.mem_cons_self).covers
        rw [hk] at hcovers
        rw [List.append_nil, spelled_cons, spelled_nil, List.append_nil]
        have htext : "#".intercalate [t.text] = t.text := String.intercalate_singleton
        exact ⟨⟨rfl, rfl⟩, congrArg String.toList htext, hcovers.isNameRest⟩

theorem DerivesPath.eq_of_ordinary {outer : List SegmentTree} {last : SegmentTree} {ts : List Token}
    (h : DerivesPath outer last ts) (hts : ∀ t ∈ ts, IsOrdinary t) :
    (∀ s ∈ outer ++ [last], s.name.flags = .none ∧ s.generics = none) ∧
      ['.'].intercalate ((outer ++ [last]).map (·.name.text.toList)) = spelled ts ∧
      ∀ c ∈ spelled ts, c = '.' ∨ isNameRest c = true := by
  induction h with
  | single hs =>
    obtain ⟨hplain, htext, hword⟩ := hs.eq_of_ordinary hts
    rw [List.nil_append, List.forall_mem_singleton, List.map_singleton, List.intercalate_singleton]
    exact ⟨hplain, htext, fun c hc => .inr (hword c hc)⟩
  | cons hs hperiod _ ih =>
    rw [List.forall_mem_append, List.forall_mem_cons] at hts
    obtain ⟨hfirst, hsign, hrest⟩ := hts
    obtain ⟨hplain, htext, hword⟩ := hs.eq_of_ordinary hfirst
    obtain ⟨hplains, htexts, hwords⟩ := ih hrest
    have hne : ∀ {outer : List SegmentTree} {last : SegmentTree},
        (outer ++ [last]).map (·.name.text.toList) ≠ [] := by simp
    rw [List.cons_append, List.forall_mem_cons, List.map_cons, List.intercalate_cons_of_ne_nil hne,
      htext, htexts, spelled_append, spelled_cons, hsign.covers.toList_eq_of_kind hperiod '.' rfl,
      List.append_assoc]
    refine ⟨⟨hplain, hplains⟩, rfl, ?_⟩
    rw [List.forall_mem_append, List.forall_mem_append, List.forall_mem_singleton]
    exact ⟨fun c hc => .inr (hword c hc), .inl rfl, hwords⟩

/-- A path of plain names is displayed as it is, and has no parentheses. -/
theorem DerivesPath.displays {outer : List SegmentTree} {last : SegmentTree} {ts : List Token}
    (h : DerivesPath outer last ts) (hts : ∀ t ∈ ts, IsOrdinary t) :
    Displays (spelled ts) (".".intercalate ((outer ++ [last]).map (·.name.text))).toList ∧
      '(' ∉ spelled ts := by
  obtain ⟨-, hnames, hchars⟩ := h.eq_of_ordinary hts
  rw [String.toList_intercalate, List.map_map, Function.comp_def]
  refine ⟨?_, fun hmem => ?_⟩
  · rw [show ".".toList = ['.'] from rfl, hnames]
    refine .of_forall fun c hc => ?_
    rcases hchars c hc with rfl | hword
    · decide
    · exact not_mem_respelled_of_isNameRest hword
  · rcases hchars _ hmem with heq | hword
    · exact absurd heq (by decide)
    · exact absurd hword (by decide)

end Grammar

/-! ## Identifiers -/

/-- An identifier whose levels are plain names is written as these names and its parameters. -/
theorem IdentifierTree.text_toIdentifier {tree : IdentifierTree}
    (hplain : ∀ s ∈ tree.segments, s.name.flags = .none ∧ s.generics = none) :
    (tree.toIdentifier true).text = ".".intercalate (tree.segments.map (·.name.text)) ++
      ("(" ++ ", ".intercalate ((tree.toIdentifier true).parameters.map Parameter.text) ++ ")") := by
  obtain ⟨hflags, -⟩ := hplain tree.last (List.mem_append_right _ (List.mem_singleton_self _))
  have hmethod : (tree.toIdentifier true).flags = .none ||| .methodBit :=
    congrArg (· ||| NameFlags.methodBit) hflags
  have htypes : ∀ s ∈ (tree.toIdentifier true).asClassPath, s.typeParameters = [] := by
    intro s hs
    have hmem := List.mem_map_of_mem (f := (·.typeParameters.length)) hs
    rw [(tree.readsAs_toIdentifier true).arities, List.mem_map] at hmem
    obtain ⟨level, hlevel, harity⟩ := hmem
    rw [SegmentTree.arity, (hplain level hlevel).2] at harity
    exact List.length_eq_zero_iff.mp harity.symm
  have hnames : (tree.toIdentifier true).asClassPath.map Segment.text =
      tree.segments.map (·.name.text) := by
    rw [← (tree.readsAs_toIdentifier true).names]
    refine List.map_congr_left fun s hs => ?_
    rw [Segment.text, htypes s hs, angled, String.append_empty]
  rw [Identifier.text_eq_of_displayName
    (Identifier.displayName_eq_name (by rw [hmethod]; decide)), hnames, Identifier.parameterText,
    Identifier.isCallable, hmethod]
  rfl

/-- The characters of a text that is displayed as it is written. -/
def IsShown (c : Char) : Prop := c ≠ graveAccent ∧ c ≠ '#' ∧ c ≠ '@' ∧ 0x20 ≤ c.toNat

instance : DecidablePred IsShown := fun _ => inferInstanceAs (Decidable (_ ∧ _))

theorem isOrdinary_of_mem_tokenize {text : String} (hshown : ∀ c ∈ text.toList, IsShown c)
    (hknown : ∀ t ∈ (tokenize text).dropLast, t.kind ≠ .unknown) :
    text.toList = spelled (tokenize text).dropLast ∧
      ∀ t ∈ (tokenize text).dropLast, IsOrdinary t := by
  have hspelled := toList_eq_flatMap_tokenize (fun c hc => (hshown c hc).2.2.2) hknown
  refine ⟨hspelled, fun t ht => ?_⟩
  have hcovers := (covers_of_mem_scan (List.dropLast_subset _ ht)
    (kind_ne_endOfInput_of_mem_written 0 _ t ht) (hknown t ht)).1
  have hchars : ∀ c ∈ t.text.toList, IsShown c := by
    intro c hc
    refine hshown c ?_
    rw [hspelled]
    exact List.mem_flatMap.mpr ⟨t, ht, hc⟩
  refine ⟨hcovers, fun hmark => ?_, fun hsign => ?_⟩
  · rcases hcovers.exists_mem_of_doubling hmark with hc | hc
    · exact (hchars _ hc).2.1 rfl
    · exact (hchars _ hc).1 rfl
  · rw [hcovers.toList_eq_of_kind hsign '@' rfl, List.forall_mem_singleton] at hchars
    exact hchars.2.2.1 rfl

/-- What is read as a method is displayed as it is written, but for braces, commas and array suffixes,
and with a pair of parentheses where there are none.  The text has no mark of generic parameters, no
number sign, no sign for passing out and nothing that the lexer passes over. -/
theorem Identifier.text_eq_displayed {text : String} {x : Identifier}
    (h : Identifier.parse text true = .ok x) (hshown : ∀ c ∈ text.toList, IsShown c) :
    x.text = String.ofList
      (displayed text.toList ++ if '(' ∈ text.toList then [] else ['(', ')']) := by
  obtain ⟨tree, hd, -, -, rfl⟩ := derives_of_parse h
  obtain ⟨hspelled, hordinary⟩ := isOrdinary_of_mem_tokenize hshown hd.isKnown
  rw [hspelled]
  generalize (tokenize text).dropLast = ts at hd hordinary
  obtain @⟨outer, last, ps, ts, us, hpath, hps⟩ := hd
  rw [List.forall_mem_append] at hordinary
  obtain ⟨hdisplays, hparen⟩ := hpath.displays hordinary.1
  have htext := @IdentifierTree.text_toIdentifier ⟨outer, last, ps⟩ (hpath.eq_of_ordinary hordinary.1).1
  have hparameters := hps.displayed_spelled hordinary.2
    (Scope.ofPath ((outer ++ [last]).map (·.converted)))
  have hmem : '(' ∈ spelled ts ++ spelled us ↔ '(' ∈ spelled us := by
    rw [List.mem_append, or_iff_right hparen]
  rw [htext, ← String.toList_inj, String.toList_ofList, spelled_append, hdisplays, List.append_assoc]
  simp only [hmem]
  rw [hparameters, String.toList_append]
  rfl

theorem Identifier.text_eq_displayed_of_nested : ∃ x,
    Identifier.parse "A.f(B\x7bC,D\x7bE\x7d.F\x7d[0:,0:][],G[0:])" true = .ok x ∧
      x.text = "A.f(B<C, D<E>.F>[,][], G[])" := by
  obtain ⟨x, hx⟩ := exists_eq_ok_of_isOk
    (by cbv : (Identifier.parse "A.f(B\x7bC,D\x7bE\x7d.F\x7d[0:,0:][],G[0:])" true).isOk)
  have hshown : ("A.f(B\x7bC,D\x7bE\x7d.F\x7d[0:,0:][],G[0:])".toList.all
      fun c => IsShown c) = true := by decide
  refine ⟨x, hx, ?_⟩
  rw [text_eq_displayed hx fun c hc => of_decide_eq_true (List.all_eq_true.mp hshown c hc)]
  cbv

end ApiDocs
