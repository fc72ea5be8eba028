import ApiDocs.Proofs.Grammar.Sound
import ApiDocs.Proofs.Grammar.Tokens
import ApiDocs.Proofs.Grammar.Unique
import ApiDocs.Proofs.Identifier.Declared
import ApiDocs.Proofs.Text.Parts

/-!
# The texts that are member ids

The three parts of the parser are put together: a path, its parameters and the end of input.

* `Grammar.parseTokens_of_derives`, `Grammar.derives_of_parseTokens`: tokens are accepted if and
  only if they are derived from `identifier`, their numbers can be converted and their references
  mean something;
* `Identifier.parse_iff_derives`: the same for texts, with what is returned;
* `Identifier.not_mem_of_parse`: a character that begins no token stands in no member id.
-/

namespace ApiDocs

open Token

namespace IdentifierTree

theorem numerals_isReadable_iff (tree : IdentifierTree) : (∀ n ∈ tree.numerals, n.IsReadable) ↔
    (∀ s ∈ tree.segments, ∀ g ∈ s.generics, g.2.IsReadable) ∧
      ∀ r ∈ tree.references, r.2.IsReadable := by
  rw [numerals, List.forall_mem_append, List.forall_mem_map, List.forall_mem_map]
  refine and_congr_left fun _ => ?_
  simp only [List.mem_filterMap]
  exact ⟨fun h s hs g hg => h g ⟨s, hs, hg⟩, fun h g ⟨s, hs, hg⟩ => h s hs g hg⟩

theorem resolves_references_iff (tree : IdentifierTree) :
    (Scope.ofPath (tree.segments.map (·.converted))).Resolves tree.references ↔
      (∀ r ∈ tree.references, r.2.IsReadable) ∧ tree.InRange := by
  simp only [Scope.Resolves, InRange, Scope.length_names_ofPath]
  exact ⟨fun h => ⟨fun r hr => (h r hr).1, fun r hr => (h r hr).2⟩,
    fun h r hr => ⟨h.1 r hr, h.2 r hr⟩⟩

theorem map_converted_segments (tree : IdentifierTree) :
    tree.outer.map (·.converted) ++ [tree.last.converted] = tree.segments.map (·.converted) := by
  rw [segments, List.map_append]
  rfl

end IdentifierTree

namespace Grammar

/-- Tokens derived from `identifier` are accepted when their numbers can be converted and their
references are in range. -/
theorem parseTokens_of_derives {tree : IdentifierTree} {us : List Token}
    (h : DerivesIdentifier tree us) (hread : ∀ n ∈ tree.numerals, n.IsReadable)
    (hrange : tree.InRange) (isMethod : Bool) (n : Nat) :
    Identifier.parseTokens isMethod (us ++ [endAt n]) = .ok (tree.toIdentifier isMethod) := by
  obtain ⟨hsegments, hreferences⟩ := tree.numerals_isReadable_iff.mp hread
  have hres := tree.resolves_references_iff.mpr ⟨hreferences, hrange⟩
  rw [← tree.map_converted_segments] at hres
  obtain @⟨outer, last, ps, ts, us, hpath, hps⟩ := h
  have hend : ∀ {kinds : List TokenKind}, .endOfInput ∉ kinds → NotNext kinds [endAt n] :=
    fun hnot => notNext_of_kind rfl hnot
  obtain ⟨hlt, hpath⟩ := path_of_derives hpath hsegments
    (notNext_of_derivesParameters hps (hend (by decide)) (by decide))
  obtain ⟨hle, hps⟩ := parameters_of_derives hps hres (hend (by decide))
  rw [List.append_assoc, Identifier.parseTokens, hpath]
  simp only [hps]
  rw [IdentifierTree.toIdentifier, ← IdentifierTree.map_converted_segments]
  rfl

theorem eq_of_append_singleton_eq {us vs ws : List Token} {t e : Token}
    (heq : us ++ [e] = vs ++ t :: ws) (ht : t ∉ us) : us = vs := by
  rcases List.eq_nil_or_concat ws with rfl | ⟨ws, w, rfl⟩
  · exact (List.append_inj' heq rfl).1
  · have hsplit : us ++ [e] = (vs ++ t :: ws) ++ [w] := by simpa using heq
    obtain ⟨rfl, -⟩ := List.append_inj' hsplit rfl
    exact absurd (List.mem_append_right vs List.mem_cons_self) ht

theorem DerivesIdentifier.path_of_none {tree : IdentifierTree} {us : List Token}
    (h : DerivesIdentifier tree us) (hnone : tree.parameters = none) :
    DerivesPath tree.outer tree.last us := by
  obtain ⟨hpath, hps⟩ := h
  cases hps with
  | none =>
    rw [List.append_nil]
    exact hpath
  | empty => cases hnone
  | list => cases hnone

/-- Tokens that are accepted are derived from `identifier`. -/
theorem derives_of_parseTokens {isMethod : Bool} {us : List Token} {n : Nat} {x : Identifier}
    (hus : ∀ t ∈ us, t.kind ≠ .endOfInput)
    (h : Identifier.parseTokens isMethod (us ++ [endAt n]) = .ok x) : ∃ tree,
      DerivesIdentifier tree us ∧ (∀ n ∈ tree.numerals, n.IsReadable) ∧ tree.InRange ∧
      tree.toIdentifier isMethod = x := by
  rw [Identifier.parseTokens] at h
  split at h
  · cases h
  · next outer last rest hlt hpath =>
    split at h
    · cases h
    · next list rest' hle hps =>
      split at h
      · cases h
      · next t hexpect =>
        cases h
        obtain ⟨⟨t, left⟩, ht⟩ := t
        obtain ⟨rfl, hk⟩ := expect_eq_ok hexpect
        obtain ⟨used, trees, tree, husplit, hdpath, rfl, rfl, hread⟩ := derives_of_path hpath
        obtain ⟨used', ps, rfl, hdps, rfl, hres⟩ := derives_of_parameters hps
        rw [← List.append_assoc] at husplit
        obtain rfl := eq_of_append_singleton_eq husplit fun hmem => hus t hmem hk
        have hmap := IdentifierTree.map_converted_segments ⟨trees, tree, ps⟩
        rw [hmap] at hres
        obtain ⟨hreferences, hrange⟩ := (IdentifierTree.resolves_references_iff _).mp hres
        refine ⟨⟨trees, tree, ps⟩, ⟨hdpath, hdps⟩,
          (IdentifierTree.numerals_isReadable_iff _).mpr ⟨hread, hreferences⟩, hrange, ?_⟩
        rw [IdentifierTree.toIdentifier, ← IdentifierTree.map_converted_segments]
        rfl

end Grammar

open Grammar

theorem Identifier.parse_of_derives {text : String} {tree : IdentifierTree}
    (h : DerivesIdentifier tree (tokenize text).dropLast) (hread : ∀ n ∈ tree.numerals, n.IsReadable)
    (hrange : tree.InRange) (isMethod : Bool) :
    Identifier.parse text isMethod = .ok (tree.toIdentifier isMethod) := by
  rw [Identifier.parse, tokenize_eq]
  exact parseTokens_of_derives h hread hrange isMethod _

theorem Identifier.derives_of_parse {text : String} {isMethod : Bool} {x : Identifier}
    (h : Identifier.parse text isMethod = .ok x) : ∃ tree,
      DerivesIdentifier tree (tokenize text).dropLast ∧ (∀ n ∈ tree.numerals, n.IsReadable) ∧
      tree.InRange ∧ tree.toIdentifier isMethod = x := by
  rw [Identifier.parse, tokenize_eq] at h
  exact derives_of_parseTokens (kind_ne_endOfInput_of_mem_written _ _) h

/-- A character that is a token by itself, and of unknown kind, stands in no member id. -/
theorem Identifier.not_mem_of_parse {c : Char} (hc : Separates c) (hunknown : punctuation? c = none)
    (hplain : Text.IsPlain c) {text : String} {isMethod : Bool} {x : Identifier}
    (h : Identifier.parse text isMethod = .ok x) : c ∉ text.toList := by
  intro hmem
  obtain ⟨front, back, hsplit⟩ := List.append_of_mem hmem
  obtain ⟨tree, hd, -⟩ := Identifier.derives_of_parse h
  have hwritten : (tokenize text).dropLast = written 0 (Text.symbols front) ++
      ⟨.unknown, (Text.symbols front).length, [.char c]⟩ ::
        written ((Text.symbols front).length + 1) (Text.symbols back) := by
    show written 0 (Text.symbols text.toList) = _
    rw [hsplit, Text.symbols_append_cons hplain, written_append_separator hc, hunknown,
      Nat.zero_add]
    rfl
  rw [hwritten] at hd
  exact hd.isKnown _ (List.mem_append_right _ List.mem_cons_self) rfl

theorem TypeRef.parse_of_derives {text : String} {scope : Scope} {a : ArgumentTree}
    (h : DerivesArgument a (tokenize text).dropLast) (hres : scope.Resolves a.references) :
    TypeRef.parse text scope = .ok (a.read scope) := by
  have hnext : NotNext argumentGoesOn [endAt (Text.symbols text.toList).length] :=
    notNext_of_kind (rfl : _ = TokenKind.endOfInput) (by decide)
  obtain ⟨hlt, hargument⟩ : ∃ hlt, argument scope (tokenize text) =
      .ok ⟨(a.read scope, [endAt (Text.symbols text.toList).length]), hlt⟩ := by
    rw [tokenize_eq]
    exact argument_of_derives h hres _ hnext
  rw [TypeRef.parse, hargument]
  rfl

/-- A name alone is the type that it names. -/
theorem TypeRef.parse_plain (scope : Scope) {text : String} {t : Token}
    (htokens : (tokenize text).dropLast = [t]) (hk : t.kind = .name) :
    TypeRef.parse text scope = .ok (.simple [t.text]) := by
  have hderives : DerivesArgument (.path [.mk t.text []] []) (tokenize text).dropLast := by
    rw [htokens]
    exact .path (.single (.plain hk)) .nil
  exact TypeRef.parse_of_derives hderives nofun

end ApiDocs
