import ApiDocs.Proofs.Token.Spelling

/-!
# Cutting a text at a sign

A sign takes nothing of what stands around it.  A text may therefore be cut in front of a sign that is
one of its tokens, and the tokens that stand in front of it are then those of what is left.

* `Text.front`: the front of a text;
* `Token.exists_split_of_written`: a sign stands in the text at its place;
* `Token.tokenize_front`: the tokens of the text in front of a sign.
-/

namespace ApiDocs

/-- The first symbols of a text. -/
def Text.front (n : Nat) (text : String) : String := ofSymbols ((symbols text.toList).take n)

open Text

namespace Token

variable {c : Char} {t : Token} {us vs : List Token}

/-- A token of the kind of a sign is that sign, and takes nothing of what stands behind it. -/
theorem eq_of_firstLexeme {x : Symbol} {rest : List Symbol} {kind : TokenKind}
    (hk : (firstLexeme x rest).1 = kind) (hc : punctuation? c = some kind) :
    x = .char c ∧ (firstLexeme x rest).2 = [] := by
  subst hk
  have hknown : (firstLexeme x rest).1 ≠ .unknown := by
    intro hunknown
    have hmem := mem_punctuationKinds hc
    rw [hunknown] at hmem
    exact absurd hmem (by decide)
  obtain ⟨cs, hcs, hcovers⟩ := (takes_firstLexeme x rest).exists_covers hknown
  rw [hcovers.eq_of_punctuation hc] at hcs
  exact List.cons.inj hcs

/-- A sign that is written stands in the text at its place, and what is written in front of it is what
is written in the text in front of that place. -/
theorem exists_split_of_written (start : Nat) (xs : List Symbol) (hc : punctuation? c = some t.kind) :
    ∀ us, written start xs = us ++ t :: vs → ∃ front back, xs = front ++ .char c :: back ∧
      t.start = start + front.length ∧ written start front = us := by
  induction start, xs using scan_induction with
  | nil start =>
    intro us h
    simp [written_nil] at h
  | skipped start x xs hx ih =>
    intro us h
    rw [written_of_isSkipped hx] at h
    obtain ⟨front, back, rfl, hstart, hfront⟩ := ih us h
    refine ⟨x :: front, back, rfl, ?_, by rw [written_of_isSkipped hx, hfront]⟩
    rw [hstart, List.length_cons]
    omega
  | token start x xs hx ih =>
    intro us h
    rw [written_of_not_isSkipped hx] at h
    cases us with
    | nil =>
      -- The sign is the first token.
      obtain ⟨rfl, -⟩ := List.cons.inj h
      obtain ⟨rfl, -⟩ := eq_of_firstLexeme rfl hc
      exact ⟨[], xs, rfl, rfl, written_nil start⟩
    | cons u us =>
      obtain ⟨rfl, hmore⟩ := List.cons.inj h
      obtain ⟨front, back, hrest, hstart, hfront⟩ := ih us hmore
      have hends : EndsToken c := (separates_of_mem_punctuation c (mem_punctuation hc)).1
      have hxs : xs = ((firstLexeme x xs).2 ++ front) ++ .char c :: back := by
        rw [List.append_assoc, ← hrest, append_restAfter]
      have hsame : firstLexeme x ((firstLexeme x xs).2 ++ front) = firstLexeme x xs := by
        have hcut := firstLexeme_append hends x ((firstLexeme x xs).2 ++ front) back
        rw [← hxs] at hcut
        exact hcut.symm
      refine ⟨x :: ((firstLexeme x xs).2 ++ front), back, congrArg (x :: ·) hxs, ?_, ?_⟩
      · rw [hstart, List.length_cons, List.length_append]
        omega
      · rw [written_of_not_isSkipped hx, hsame, restAfter, hsame, List.drop_left, hfront]

/-- The tokens of the text in front of a sign are those in front of it. -/
theorem tokenize_front {text : String} (h : (tokenize text).dropLast = us ++ t :: vs)
    (hc : punctuation? c = some t.kind) : (tokenize (Text.front t.start text)).dropLast = us := by
  obtain ⟨front, back, hsplit, hstart, hfront⟩ := exists_split_of_written 0 _ hc us h
  rw [Nat.zero_add] at hstart
  show written 0 (symbols (Text.front t.start text).toList) = us
  rw [Text.front, symbols_ofSymbols, hsplit, hstart, List.take_left, hfront]

end Token

end ApiDocs
