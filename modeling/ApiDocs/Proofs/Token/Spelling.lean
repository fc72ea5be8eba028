import Mathlib.Data.List.Basic
import Mathlib.Data.List.TakeWhile
import ApiDocs.Proofs.Token.Scan

/-!
# What tokens spell

The kind of a token says what its text can be, and the texts of the tokens laid end to end are the whole
text, unless something is passed over.

* `Token.Covers`: the texts of the tokens of a kind;
* `Token.covers_of_mem_scan`: every token that is known has such a text;
* `Token.flatMap_lexeme_written`: the tokens hold what is not passed over;
* `Token.toList_eq_flatMap_tokenize`: a text is made of the texts of its tokens.
-/

namespace ApiDocs

open Text

/-! ## Symbols and characters -/

theorem Text.eq_half_or_char_of_behindMark? {d : Char} {x : Symbol}
    (h : Symbol.behindMark? d = some x) : (∃ place, x = .half place) ∨ x = .char halfMark := by
  rw [Symbol.behindMark?] at h
  split at h
  · cases h
    exact .inl ⟨_, rfl⟩
  · split at h
    · cases h
      exact .inr rfl
    · cases h

theorem Text.symbols_ne_cons_of_halfMark {d : Char} (hd : d ≠ halfMark) (cs : List Char)
    (xs : List Symbol) : symbols (halfMark :: cs) ≠ .char d :: xs := by
  have hmark : halfMark ≠ d := Ne.symm hd
  cases cs with
  | nil => simp [symbols, hmark]
  | cons c cs =>
    rw [symbols, if_pos rfl]
    split
    · next x hx =>
      intro heq
      obtain ⟨rfl, -⟩ := List.cons.inj heq
      rcases eq_half_or_char_of_behindMark? hx with ⟨place, h⟩ | h
      · cases h
      · exact hd (Symbol.char.inj h)
    · simp [hmark]

/-- A text that begins with a symbol begins with its character, unless that is the mark of halves. -/
theorem Text.exists_eq_cons_of_symbols {cs : List Char} {d : Char} (hd : d ≠ halfMark)
    {xs : List Symbol} (h : symbols cs = .char d :: xs) : ∃ ds, cs = d :: ds ∧ symbols ds = xs := by
  cases cs with
  | nil => cases h
  | cons c cs =>
    by_cases hc : c = halfMark
    · subst hc
      exact absurd h (symbols_ne_cons_of_halfMark hd cs xs)
    · rw [symbols_cons_of_ne hc, List.cons.injEq, Symbol.char.injEq] at h
      exact ⟨cs, by rw [h.1], h.2⟩

/-- A text whose symbols are characters other than the mark of halves is made of these characters. -/
theorem Text.eq_of_symbols_eq_map {cs ds : List Char} (hds : halfMark ∉ ds)
    (h : symbols cs = ds.map .char) : cs = ds := by
  induction ds generalizing cs with
  | nil =>
    cases cs with
    | nil => rfl
    | cons c cs =>
      by_cases hc : c = halfMark
      · subst hc
        cases cs with
        | nil => cases h
        | cons d cs =>
          rw [List.map_nil, symbols, if_pos rfl] at h
          split at h <;> cases h
      · rw [symbols_cons_of_ne hc] at h
        cases h
  | cons d ds ih =>
    rw [List.mem_cons, not_or] at hds
    obtain ⟨cs, rfl, hcs⟩ := exists_eq_cons_of_symbols (Ne.symm hds.1) h
    rw [ih hds.2 hcs]

theorem Text.toList_ofSymbols_map {cs : List Char} (h : halfMark ∉ cs) :
    (ofSymbols (cs.map .char)).toList = cs := by
  rw [ofSymbols, String.toList_ofList]
  induction cs with
  | nil => rfl
  | cons c cs ih =>
    rw [List.mem_cons, not_or] at h
    rw [List.map_cons, List.flatMap_cons, ih h.2, Symbol.chars, if_neg (Ne.symm h.1)]
    rfl

/-- A symbol of a text is one of its characters, unless it is a half or the mark of halves. -/
theorem Text.mem_or_eq_of_mem_symbols {cs : List Char} {x : Symbol} (h : x ∈ symbols cs) :
    (∃ c ∈ cs, x = .char c) ∨ (∃ place, x = .half place) ∨ x = .char halfMark := by
  fun_induction symbols cs with
  | case1 => cases h
  | case2 c => exact .inl ⟨c, List.mem_cons_self, List.mem_singleton.mp h⟩
  | case3 d cs y hy ih =>
    rcases List.mem_cons.mp h with rfl | h
    · exact .inr (eq_half_or_char_of_behindMark? hy)
    · refine (ih h).imp_left ?_
      rintro ⟨c, hc, rfl⟩
      exact ⟨c, List.mem_cons_of_mem _ (List.mem_cons_of_mem d hc), rfl⟩
  | case4 d cs _ ih =>
    rcases List.mem_cons.mp h with rfl | h
    · exact .inr (.inr rfl)
    · refine (ih h).imp_left ?_
      rintro ⟨c, hc, rfl⟩
      exact ⟨c, List.mem_cons_of_mem _ hc, rfl⟩
  | case5 c d cs _ ih =>
    rcases List.mem_cons.mp h with rfl | h
    · exact .inl ⟨c, List.mem_cons_self, rfl⟩
    · refine (ih h).imp_left ?_
      rintro ⟨c', hc, rfl⟩
      exact ⟨c', List.mem_cons_of_mem _ hc, rfl⟩

namespace Token

/-! ## Kinds -/

/-- The texts that tokens of a kind may have: a sign by itself, a mark that may be doubled, digits, or
what a name is made of. -/
inductive Covers : TokenKind → List Char → Prop
  | punctuation {c : Char} {kind : TokenKind} : punctuation? c = some kind → Covers kind [c]
  | single {c : Char} {kind double : TokenKind} : doubling? c = some (kind, double) → Covers kind [c]
  | double {c : Char} {single kind : TokenKind} :
      doubling? c = some (single, kind) → Covers kind [c, c]
  | number {cs : List Char} : (∀ c ∈ cs, isDigit c = true) → Covers .number cs
  | name {cs : List Char} : (∀ c ∈ cs, isNameRest c = true) → Covers .name cs

theorem exists_eq_map_of_passes {p : Char → Bool} {xs : List Symbol}
    (h : ∀ x ∈ xs, x.passes p = true) :
    ∃ cs : List Char, xs = cs.map .char ∧ ∀ c ∈ cs, p c = true := by
  induction xs with
  | nil => exact ⟨[], rfl, nofun⟩
  | cons x xs ih =>
    obtain ⟨hx, hxs⟩ := List.forall_mem_cons.mp h
    obtain ⟨cs, rfl, hcs⟩ := ih hxs
    cases x with
    | half place => cases hx
    | char c => exact ⟨c :: cs, rfl, List.forall_mem_cons.mpr ⟨hx, hcs⟩⟩

/-- What is taken, with the symbol in front of it, is one of the texts of its kind. -/
theorem Takes.exists_covers {kind : TokenKind} {x : Symbol} {rest more : List Symbol}
    (h : Takes kind x rest more) (hknown : kind ≠ .unknown) :
    ∃ cs : List Char, x :: more = cs.map .char ∧ Covers kind cs := by
  have hrun : ∀ p : Char → Bool, ∃ cs : List Char,
      rest.takeWhile (·.passes p) = cs.map .char ∧ ∀ c ∈ cs, p c = true := fun p =>
    exists_eq_map_of_passes fun y hy => List.mem_takeWhile_imp hy
  cases h with
  | @punctuation c _ _ hc => exact ⟨[c], rfl, .punctuation hc⟩
  | @double c _ _ _ hc => exact ⟨[c, c], rfl, .double hc⟩
  | @single c _ _ _ hc => exact ⟨[c], rfl, .single hc⟩
  | @number c _ hdigit =>
    obtain ⟨cs, hcs, hall⟩ := hrun isDigit
    exact ⟨c :: cs, by rw [hcs]; rfl, .number (List.forall_mem_cons.mpr ⟨hdigit, hall⟩)⟩
  | @name c _ hstart =>
    obtain ⟨cs, hcs, hall⟩ := hrun isNameRest
    refine ⟨c :: cs, by rw [hcs]; rfl, .name (List.forall_mem_cons.mpr ⟨?_, hall⟩)⟩
    exact isNameRest_of_isNameStart hstart
  | unknown => exact absurd rfl hknown

theorem isNameRest_halfMark : isNameRest halfMark = false := by decide +kernel

theorem Covers.halfMark_not_mem {kind : TokenKind} {cs : List Char} (h : Covers kind cs) :
    halfMark ∉ cs := by
  have hdoubled : ∀ {c : Char} {single double : TokenKind},
      doubling? c = some (single, double) → halfMark ≠ c := by
    rintro c single double hc rfl
    cases hc
  cases h with
  | @punctuation c _ hc =>
    rw [List.mem_singleton]
    exact Ne.symm (forall_mem_punctuation (p := (· ≠ halfMark)) (by decide) c (mem_punctuation hc))
  | single hc =>
    rw [List.mem_singleton]
    exact hdoubled hc
  | double hc =>
    rw [List.mem_cons, List.mem_singleton, or_self_iff]
    exact hdoubled hc
  | number hall =>
    intro hmem
    exact absurd (hall _ hmem) (by decide)
  | name hall =>
    intro hmem
    have hrest := hall _ hmem
    rw [isNameRest_halfMark] at hrest
    cases hrest

theorem eq_of_punctuation? {c d : Char} {kind : TokenKind} (hc : punctuation? c = some kind)
    (hd : punctuation? d = some kind) : c = d := by
  rw [punctuation?.eq_def] at hc hd
  split at hc <;> cases hc <;> split at hd <;> first | rfl | cases hd

theorem not_mem_punctuationKinds_of_doubling? {c : Char} {single double : TokenKind}
    (h : doubling? c = some (single, double)) :
    single ∉ punctuationKinds ∧ double ∉ punctuationKinds := by
  rcases doubling?_eq_some h with ⟨rfl, rfl⟩ | ⟨rfl, rfl⟩ <;> decide

/-- A sign is spelled by itself. -/
theorem Covers.eq_of_punctuation {c : Char} {kind : TokenKind} {cs : List Char} (h : Covers kind cs)
    (hc : punctuation? c = some kind) : cs = [c] := by
  have hmem := mem_punctuationKinds hc
  cases h with
  | punctuation hd => rw [eq_of_punctuation? hc hd]
  | single hd => exact absurd hmem (not_mem_punctuationKinds_of_doubling? hd).1
  | double hd => exact absurd hmem (not_mem_punctuationKinds_of_doubling? hd).2
  | number => exact absurd hmem (by decide)
  | name => exact absurd hmem (by decide)

theorem Covers.toList_eq_of_kind {t : Token} (h : Covers t.kind t.text.toList) {kind : TokenKind}
    (hk : t.kind = kind) (c : Char) (hc : punctuation? c = some kind) : t.text.toList = [c] := by
  subst hk
  exact h.eq_of_punctuation hc

theorem Covers.isNameRest {cs : List Char} (h : Covers .name cs) :
    ∀ c ∈ cs, isNameRest c = true := by
  cases h with
  | punctuation hd => exact absurd (mem_punctuationKinds hd) (by decide)
  | single hd => rcases doubling?_eq_some hd with ⟨h, -⟩ | ⟨h, -⟩ <;> cases h
  | double hd => rcases doubling?_eq_some hd with ⟨-, h⟩ | ⟨-, h⟩ <;> cases h
  | name hall => exact hall

theorem Covers.isDigit {cs : List Char} (h : Covers .number cs) : ∀ c ∈ cs, isDigit c = true := by
  cases h with
  | punctuation hd => exact absurd (mem_punctuationKinds hd) (by decide)
  | single hd => rcases doubling?_eq_some hd with ⟨h, -⟩ | ⟨h, -⟩ <;> cases h
  | double hd => rcases doubling?_eq_some hd with ⟨-, h⟩ | ⟨-, h⟩ <;> cases h
  | number hall => exact hall

/-- A mark that may be doubled is spelled by its character. -/
theorem Covers.exists_mem_of_doubling {kind : TokenKind} {cs : List Char} (h : Covers kind cs)
    (hk : kind ∈ [.sharp, .doubleSharp, .backtick, .doubleBacktick]) :
    '#' ∈ cs ∨ graveAccent ∈ cs := by
  cases h with
  | punctuation hd =>
    have hapart : ∀ k ∈ [TokenKind.sharp, .doubleSharp, .backtick, .doubleBacktick],
        k ∉ punctuationKinds := by decide
    exact absurd (mem_punctuationKinds hd) (hapart kind hk)
  | single hd => rcases eq_of_doubling? hd with rfl | rfl <;> simp
  | double hd => rcases eq_of_doubling? hd with rfl | rfl <;> simp
  | number => exact absurd hk (by decide)
  | name => exact absurd hk (by decide)

/-! ## Tokens of a text -/

/-- A token that is known has one of the texts of its kind, and covers the characters of it. -/
theorem covers_of_mem_scan {start : Nat} {xs : List Symbol} {t : Token} (ht : t ∈ scan start xs)
    (hend : t.kind ≠ .endOfInput) (hknown : t.kind ≠ .unknown) :
    Covers t.kind t.text.toList ∧ t.lexeme = t.text.toList.map .char := by
  obtain ⟨front, x, rest, kind, more, -, -, htakes, rfl⟩ :=
    exists_takes_of_mem_written start xs t (mem_written_of_mem_scan ht hend)
  obtain ⟨cs, hcs, hcovers⟩ := htakes.exists_covers hknown
  have htext : (ofSymbols (x :: more)).toList = cs := by
    rw [hcs, toList_ofSymbols_map hcovers.halfMark_not_mem]
  rw [Token.text, htext]
  exact ⟨hcovers, hcs⟩

/-- A token takes its symbols from the text. -/
theorem lexeme_subset_of_mem_written {start : Nat} {xs : List Symbol} {t : Token}
    (ht : t ∈ written start xs) : t.lexeme ⊆ xs := by
  obtain ⟨front, x, rest, kind, more, rfl, -, htakes, rfl⟩ :=
    exists_takes_of_mem_written start xs t ht
  refine List.Subset.trans ?_ (List.subset_append_right front _)
  exact List.cons_subset_cons x htakes.isPrefix.subset

/-- A sign that is a token of a text stands in the text. -/
theorem mem_of_mem_tokenize {text : String} {t : Token} (ht : t ∈ tokenize text) {c : Char}
    (hc : punctuation? c = some t.kind) : c ∈ text.toList := by
  have hkind := mem_punctuationKinds hc
  have hend : t.kind ≠ .endOfInput := fun h => absurd (h ▸ hkind) (by decide)
  have hknown : t.kind ≠ .unknown := fun h => absurd (h ▸ hkind) (by decide)
  obtain ⟨hcovers, hlexeme⟩ := covers_of_mem_scan ht hend hknown
  rw [hcovers.eq_of_punctuation hc] at hlexeme
  have hmem : Symbol.char c ∈ symbols text.toList := by
    refine lexeme_subset_of_mem_written (mem_written_of_mem_scan ht hend) ?_
    rw [hlexeme]
    exact List.mem_singleton_self _
  rcases mem_or_eq_of_mem_symbols hmem with ⟨d, hd, heq⟩ | ⟨place, heq⟩ | heq
  · cases heq
    exact hd
  · cases heq
  · cases heq
    exact absurd (mem_punctuation hc) (by decide)

/-- What is not passed over is in the tokens. -/
theorem flatMap_lexeme_written (start : Nat) (xs : List Symbol) :
    (written start xs).flatMap (·.lexeme) = xs.filter fun x => !isSkipped x := by
  induction start, xs using scan_induction with
  | nil start =>
    rw [written_nil]
    rfl
  | skipped start x xs hx ih =>
    rw [written_of_isSkipped hx, ih, List.filter_cons, hx]
    rfl
  | token start x xs hx ih =>
    have hx := eq_false_of_ne_true hx
    have htaken : ((firstLexeme x xs).2.filter fun y => !isSkipped y) = (firstLexeme x xs).2 := by
      refine List.filter_eq_self.mpr fun y hy => ?_
      rw [(takes_firstLexeme x xs).isSkipped_eq_false hx y hy]
      rfl
    rw [written_of_not_isSkipped (by rw [hx]; exact nofun), List.flatMap_cons, ih, List.filter_cons,
      hx]
    show x :: ((firstLexeme x xs).2 ++ _) = x :: xs.filter _
    rw [← htaken, ← List.filter_append, append_restAfter]

/-- A text is made of the texts of its tokens when they are known and nothing is passed over. -/
theorem toList_eq_flatMap_tokenize {text : String} (hshown : ∀ c ∈ text.toList, 0x20 ≤ c.toNat)
    (hknown : ∀ t ∈ (tokenize text).dropLast, t.kind ≠ .unknown) :
    text.toList = (tokenize text).dropLast.flatMap (·.text.toList) := by
  have hcovers : ∀ t ∈ (tokenize text).dropLast,
      Covers t.kind t.text.toList ∧ t.lexeme = t.text.toList.map .char := fun t ht =>
    covers_of_mem_scan (List.dropLast_subset _ ht) (kind_ne_endOfInput_of_mem_written 0 _ t ht)
      (hknown t ht)
  have hskipped : ∀ x ∈ symbols text.toList, isSkipped x = false := by
    intro x hx
    rcases mem_or_eq_of_mem_symbols hx with ⟨c, hc, rfl⟩ | ⟨place, rfl⟩ | rfl
    · exact decide_eq_false (Nat.not_lt.mpr (hshown c hc))
    · rfl
    · rfl
  refine eq_of_symbols_eq_map (fun hmem => ?_) ?_
  · obtain ⟨t, ht, hmem⟩ := List.mem_flatMap.mp hmem
    exact (hcovers t ht).1.halfMark_not_mem hmem
  · calc symbols text.toList = (symbols text.toList).filter fun x => !isSkipped x := by
          refine (List.filter_eq_self.mpr fun x hx => ?_).symm
          rw [hskipped x hx]
          rfl
      _ = (tokenize text).dropLast.flatMap (·.lexeme) := (flatMap_lexeme_written 0 _).symm
      _ = (tokenize text).dropLast.flatMap fun t => t.text.toList.map .char :=
          List.flatMap_congr fun t ht => (hcovers t ht).2
      _ = ((tokenize text).dropLast.flatMap (·.text.toList)).map .char := by rw [List.map_flatMap]

end Token

end ApiDocs
