import ApiDocs.Text.Range

/-!
# Blank characters

The characters of Unicode's White_Space together with the four information separators, and the
removal of them at the ends of a text.

* `stripStart`, `stripEnd`, `strip`: a text without its blanks at the front, the end, or both;
* `stripStart_stripEnd_stripStart`: stripping the end leaves a front without blanks as it is.
-/

namespace ApiDocs.Text

/-- The blank characters in ascending order. -/
def blankRanges : List (Nat × Nat) := [
  (0x9, 0xd), (0x1c, 0x20), (0x85, 0x85), (0xa0, 0xa0), (0x1680, 0x1680), (0x2000, 0x200a),
  (0x2028, 0x2029), (0x202f, 0x202f), (0x205f, 0x205f), (0x3000, 0x3000)]

/-- Whether a character is blank. -/
def isBlank (c : Char) : Bool := inRanges blankRanges c.toNat

/-- A text without the blanks it begins with. -/
def stripStart (cs : List Char) : List Char := cs.dropWhile isBlank

/-- A text without the blanks it ends with. -/
def stripEnd (cs : List Char) : List Char := (cs.reverse.dropWhile isBlank).reverse

/-- A text without the blanks at its two ends. -/
def strip (s : String) : String := String.ofList (stripEnd (stripStart s.toList))

/-! ## Ends of a stripped text -/

theorem stripEnd_nil : stripEnd [] = [] := rfl

/-- A character that is not blank stays in front when the end is stripped. -/
theorem stripEnd_cons {c : Char} (h : isBlank c = false) (cs : List Char) :
    stripEnd (c :: cs) = c :: stripEnd cs := by
  have aux : ∀ l : List Char,
      (l ++ [c]).dropWhile isBlank = l.dropWhile isBlank ++ [c] := by
    intro l
    induction l with
    | nil => simp [h]
    | cons a l ih => by_cases ha : isBlank a <;> simp [ha, ih]
  simp [stripEnd, aux]

/-- Stripping the end leaves a front without blanks as it is. -/
theorem stripStart_stripEnd_stripStart (cs : List Char) :
    stripStart (stripEnd (stripStart cs)) = stripEnd (stripStart cs) := by
  induction cs with
  | nil => rfl
  | cons c cs ih =>
    by_cases h : isBlank c
    · have step : stripStart (c :: cs) = stripStart cs := by simp [stripStart, h]
      rw [step, ih]
    · have h : isBlank c = false := by simpa using h
      have step : stripStart (c :: cs) = c :: cs := by simp [stripStart, h]
      rw [step, stripEnd_cons h]
      simp [stripStart, h]

end ApiDocs.Text
