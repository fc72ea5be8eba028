import Mathlib
import ApiDocs.Text.Symbol

/-!
# Texts are in order as their symbols are

A half takes two characters of a string, and so does the mark behind which it stands.  The mark is the
first character above all halves, and what stands behind it ascends with them, so the order of strings is
still the one of the numbers of their symbols.

* `Text.lex_flatMap_chars`: symbols in order are written as characters in order;
* `Text.ofSymbols_lt_iff`: the order of texts.
-/

namespace ApiDocs.Text

namespace Symbol

/-- A symbol is a character by itself, or one behind the mark. -/
theorem exists_chars (x : Symbol) : (∃ c, c ≠ halfMark ∧ x.number = c.toNat ∧ x.chars = [c]) ∨
    ∃ n ≤ 0x800, x.number = 0xd800 + n ∧ x.chars = [halfMark, Char.ofNat (0xe000 + n)] := by
  cases x with
  | half place => exact .inr ⟨place, Nat.le_of_lt place.isLt, rfl, rfl⟩
  | char c =>
    by_cases hc : c = halfMark
    · subst hc
      exact .inr ⟨0x800, le_rfl, rfl, rfl⟩
    · exact .inl ⟨c, hc, rfl, if_neg hc⟩

theorem number_injective : Function.Injective number := by
  have hapart : ∀ (c : Char) (place : Fin 0x800), number (char c) ≠ number (half place) := by
    intro c place h
    have hvalid := c.valid
    have hnumber : c.toNat = 0xd800 + place := h
    simp only [Char.toNat, UInt32.isValidChar, Nat.isValidChar] at hvalid hnumber
    omega
  intro x y h
  cases x with
  | char c =>
    cases y with
    | char d => exact congrArg char (Char.toNat_inj.mp h)
    | half q => exact absurd h (hapart c q)
  | half p =>
    cases y with
    | char d => exact absurd h.symm (hapart d p)
    | half q => exact congrArg half (Fin.ext (Nat.add_left_cancel h))

end Symbol

/-- Symbols in order. -/
def SymbolsLt (xs ys : List Symbol) : Prop := List.Lex (fun x y => x.number < y.number) xs ys

theorem lex_chars {x y : Symbol} (h : x.number < y.number) (cs ds : List Char) :
    List.Lex (· < ·) (x.chars ++ cs) (y.chars ++ ds) := by
  have hlt : ∀ {c d : Char}, c.toNat < d.toNat → c < d := fun h => h
  have hmark : halfMark.toNat = 0xe000 := rfl
  rcases x.exists_chars with ⟨c, hc, hx, hcs⟩ | ⟨n, hn, hx, hcs⟩ <;>
    rcases y.exists_chars with ⟨d, hd, hy, hds⟩ | ⟨m, hm, hy, hds⟩ <;>
    rw [hcs, hds] <;> rw [hx, hy] at h
  · exact .rel (hlt h)
  · exact .rel (hlt (by omega))
  · -- No character lies between the halves and the mark.
    have hvalid := d.valid
    have hne : d.toNat ≠ halfMark.toNat := fun heq => hd (Char.toNat_inj.mp heq)
    refine .rel (hlt ?_)
    simp only [Char.toNat, UInt32.isValidChar, Nat.isValidChar] at hvalid hne h hmark ⊢
    omega
  · refine .cons (.rel (hlt ?_))
    rw [toNat_behindMark hn, toNat_behindMark hm]
    omega

theorem lex_flatMap_chars {xs ys : List Symbol} (h : SymbolsLt xs ys) :
    List.Lex (· < ·) (xs.flatMap Symbol.chars) (ys.flatMap Symbol.chars) := by
  induction h with
  | @nil y ys =>
    rcases y.exists_chars with ⟨c, -, -, hcs⟩ | ⟨n, -, -, hcs⟩ <;> rw [List.flatMap_cons, hcs] <;>
      exact .nil
  | @cons x xs ys h ih => exact List.Lex.append_left _ ih x.chars
  | rel h => exact lex_chars h _ _

theorem symbolsLt_trichotomy (xs ys : List Symbol) :
    SymbolsLt xs ys ∨ xs = ys ∨ SymbolsLt ys xs := by
  induction xs generalizing ys with
  | nil =>
    cases ys with
    | nil => exact .inr (.inl rfl)
    | cons y ys => exact .inl .nil
  | cons x xs ih =>
    cases ys with
    | nil => exact .inr (.inr .nil)
    | cons y ys =>
      rcases Nat.lt_trichotomy x.number y.number with h | h | h
      · exact .inl (.rel h)
      · obtain rfl := Symbol.number_injective h
        exact (ih ys).imp .cons (.imp (congrArg (x :: ·)) .cons)
      · exact .inr (.inr (.rel h))

/-- Texts are in order as the numbers of their symbols are. -/
theorem ofSymbols_lt_iff {xs ys : List Symbol} : ofSymbols xs < ofSymbols ys ↔ SymbolsLt xs ys := by
  have hlt : ∀ {xs ys}, SymbolsLt xs ys → ofSymbols xs < ofSymbols ys := by
    intro xs ys h
    rw [String.lt_iff_toList_lt, ofSymbols, ofSymbols, String.toList_ofList, String.toList_ofList]
    exact lex_flatMap_chars h
  refine ⟨fun h => ?_, hlt⟩
  rcases symbolsLt_trichotomy xs ys with hxy | rfl | hyx
  · exact hxy
  · exact absurd h (String.lt_irrefl _)
  · exact absurd h (String.lt_asymm (hlt hyx))

end ApiDocs.Text
