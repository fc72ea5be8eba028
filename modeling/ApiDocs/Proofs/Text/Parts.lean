import Mathlib.Data.List.DropRight
import ApiDocs.Text.Blank
import ApiDocs.Text.Symbol

/-!
# Texts put together

* `symbols_append_cons`: a character that has nothing to do with halves separates the symbols of what
  stands on its two sides;
* `stripEnd_append_singleton`: nothing is stripped behind a character that is not blank;
* `stripStart_append_of_forall`, `stripEnd_append_of_forall`: blanks around a text are stripped with its
  own;
* `isCore_iff`: what is left of a text between its blanks is what stripping leaves.
-/

namespace ApiDocs.Text

/-- A character that is not the mark and does not stand behind it. -/
def IsPlain (c : Char) : Prop := c ≠ halfMark ∧ Symbol.behindMark? c = none

instance (c : Char) : Decidable (IsPlain c) := inferInstanceAs (Decidable (_ ∧ _))

/-- A plain character separates the symbols on its two sides. -/
theorem symbols_append_cons {c : Char} (hc : IsPlain c) (cs ds : List Char) :
    symbols (cs ++ c :: ds) = symbols cs ++ .char c :: symbols ds := by
  fun_induction symbols cs with
  | case1 => exact symbols_cons_of_ne hc.1 ds
  | case2 d =>
    show symbols (d :: c :: ds) = .char d :: .char c :: symbols ds
    rw [symbols]
    simp only [hc.2, ite_self, symbols_cons_of_ne hc.1]
  | case3 e cs x hx ih =>
    show symbols (halfMark :: e :: (cs ++ c :: ds)) = _
    rw [symbols, if_pos rfl, hx]
    exact congrArg (x :: ·) ih
  | case4 e cs hx ih =>
    show symbols (halfMark :: e :: (cs ++ c :: ds)) = _
    rw [symbols, if_pos rfl, hx]
    exact congrArg (.char halfMark :: ·) ih
  | case5 d e cs hd ih =>
    show symbols (d :: e :: (cs ++ c :: ds)) = _
    rw [symbols, if_neg hd]
    exact congrArg (.char d :: ·) ih

/-- A character other than the mark stands for itself. -/
theorem exists_of_symbols_eq_cons {cs : List Char} {c : Char} {xs : List Symbol} (hc : c ≠ halfMark)
    (h : symbols cs = .char c :: xs) : ∃ ds, cs = c :: ds ∧ symbols ds = xs := by
  have hmark : ∀ d, Symbol.behindMark? d ≠ some (.char c) := by
    intro d hd
    unfold Symbol.behindMark? at hd
    split at hd
    · cases hd
    · split at hd
      · cases hd
        exact hc rfl
      · cases hd
  fun_cases symbols cs with
  | case1 => cases h
  | case2 d =>
    cases h
    exact ⟨[], rfl, rfl⟩
  | case3 e cs x hx =>
    rw [symbols, if_pos rfl, hx] at h
    cases h
    exact absurd hx (hmark e)
  | case4 e cs hx =>
    rw [symbols, if_pos rfl, hx] at h
    cases h
    exact absurd rfl hc
  | case5 d e cs hd =>
    rw [symbols, if_neg hd] at h
    cases h
    exact ⟨e :: cs, rfl, rfl⟩

theorem stripStart_cons {c : Char} (hc : isBlank c = false) (cs : List Char) :
    stripStart (c :: cs) = c :: cs := by
  rw [stripStart, List.dropWhile_cons_of_neg]
  rw [hc]
  exact Bool.false_ne_true

theorem stripEnd_append_singleton {c : Char} (hc : isBlank c = false) (cs : List Char) :
    stripEnd (cs ++ [c]) = cs ++ [c] := by
  have hfront := stripStart_cons hc cs.reverse
  rw [stripStart] at hfront
  rw [stripEnd, List.reverse_append, List.reverse_singleton, List.singleton_append, hfront,
    List.reverse_cons, List.reverse_reverse]

/-- Nothing is stripped when the last character is not blank. -/
theorem stripEnd_eq_self {cs : List Char} (h : ∀ c, cs.getLast? = some c → isBlank c = false) :
    stripEnd cs = cs := by
  rcases List.eq_nil_or_concat cs with rfl | ⟨front, c, rfl⟩
  · exact stripEnd_nil
  · rw [List.concat_eq_append] at h ⊢
    exact stripEnd_append_singleton (h c List.getLast?_concat) front

theorem stripStart_append_of_forall {us : List Char} (h : ∀ c ∈ us, isBlank c = true)
    (cs : List Char) : stripStart (us ++ cs) = stripStart cs :=
  List.dropWhile_append_of_pos h

theorem stripEnd_append_of_forall {vs : List Char} (h : ∀ c ∈ vs, isBlank c = true)
    (cs : List Char) : stripEnd (cs ++ vs) = stripEnd cs := by
  have hblank : ∀ c ∈ vs.reverse, isBlank c = true := fun c hc => h c (List.mem_reverse.mp hc)
  rw [stripEnd, List.reverse_append, List.dropWhile_append_of_pos hblank, stripEnd]

theorem stripEnd_stripEnd (cs : List Char) : stripEnd (stripEnd cs) = stripEnd cs := by
  rw [stripEnd, stripEnd, List.reverse_reverse, List.dropWhile_idempotent]

end ApiDocs.Text

namespace ApiDocs

open Text

/-! ## Texts without blanks at their ends -/

/-- A text neither begins nor ends with a blank. -/
def IsUnpadded (s : String) : Prop :=
  (∀ c, s.toList.head? = some c → isBlank c = false) ∧
    ∀ c, s.toList.getLast? = some c → isBlank c = false

theorem isBlank_eq_false_of_dropWhile {cs : List Char} (h : cs.dropWhile isBlank = cs) {c : Char}
    (hc : cs.head? = some c) : isBlank c = false := by
  have hhead := List.head?_dropWhile_not isBlank cs
  rw [h, hc] at hhead
  simpa using hhead

theorem isUnpadded_strip (s : String) : IsUnpadded (strip s) := by
  refine ⟨fun c hc => ?_, fun c hc => ?_⟩ <;> rw [strip, String.toList_ofList] at hc
  · exact isBlank_eq_false_of_dropWhile (stripStart_stripEnd_stripStart s.toList) hc
  · have hend := stripEnd_stripEnd (stripStart s.toList)
    rw [← List.head?_reverse] at hc
    exact isBlank_eq_false_of_dropWhile (List.reverse_eq_iff.mp hend) hc

/-- There is nothing to strip of a text without blanks at its ends. -/
theorem IsUnpadded.strip_eq {s : String} (h : IsUnpadded s) : strip s = s := by
  have hstart : stripStart s.toList = s.toList := by
    cases hcs : s.toList with
    | nil => rfl
    | cons c cs => exact stripStart_cons (h.1 c (by rw [hcs]; rfl)) cs
  rw [strip, hstart, stripEnd_eq_self h.2, String.ofList_toList]

/-- A text is another one with blanks around it. -/
structure IsCore (body s : String) : Prop where
  around : ∃ front back, (∀ c ∈ front, isBlank c = true) ∧ (∀ c ∈ back, isBlank c = true) ∧
    s.toList = front ++ body.toList ++ back
  isUnpadded : IsUnpadded body

/-- What is left of a text between its blanks is what stripping leaves. -/
theorem isCore_iff {body s : String} : IsCore body s ↔ body = strip s := by
  constructor
  · rintro ⟨⟨front, back, hfront, hback, hs⟩, hbody⟩
    rw [← hbody.strip_eq, strip, strip, hs, List.append_assoc, stripStart_append_of_forall hfront]
    cases hcs : body.toList with
    | nil =>
      have hnil : stripStart back = [] := List.dropWhile_eq_nil_iff.mpr hback
      rw [List.nil_append, hnil]
      rfl
    | cons c cs =>
      have hc : isBlank c = false := hbody.1 c (by rw [hcs]; rfl)
      rw [List.cons_append, stripStart_cons hc, stripStart_cons hc, ← List.cons_append,
        stripEnd_append_of_forall hback]
  · rintro rfl
    refine ⟨⟨s.toList.takeWhile isBlank,
      ((stripStart s.toList).reverse.takeWhile isBlank).reverse, ?_, ?_, ?_⟩, isUnpadded_strip s⟩
    · exact fun c hc => List.mem_takeWhile_imp hc
    · exact fun c hc => List.mem_takeWhile_imp (List.mem_reverse.mp hc)
    · rw [strip, String.toList_ofList, List.append_assoc, stripEnd, ← List.reverse_append,
        List.takeWhile_append_dropWhile, List.reverse_reverse]
      exact List.takeWhile_append_dropWhile.symm

end ApiDocs
