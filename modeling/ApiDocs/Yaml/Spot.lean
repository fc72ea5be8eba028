import ApiDocs.Text.Range
import ApiDocs.Text.Symbol

/-!
# Characters with their places

A document is gone through as a list of characters, each with its line, its column and its number in
the document. Two characters that are one symbol stand in one place. A null character stands for the end.

* `spotsFrom`: the characters of a text with their places, the end included;
* `peek`, `peekAt`: the character that stands next, or some characters further on;
* `span`: the next characters that pass a test. What is left is never longer than what was there.
-/

namespace ApiDocs.Yaml

/-- A character and where it stands. -/
structure Spot where
  char : Char
  number : Nat
  line : Nat
  column : Nat
deriving Repr

/-- The character that stands for the end of a document. -/
def endChar : Char := Char.ofNat 0

/-- The characters that end a line. -/
def isBreak (c : Char) : Bool :=
  c == '\n' || c == Char.ofNat 0x85 || c == Char.ofNat 0x2028 || c == Char.ofNat 0x2029

/-- Line ends and the end of the document. -/
def isBreakOrEnd (c : Char) : Bool := isBreak c || c == endChar

/-- Whatever separates words: spaces, tabs, line ends and the end of the document. -/
def isSpace (c : Char) : Bool := c == ' ' || c == '\t' || isBreakOrEnd c

/-- Spaces and tabs. -/
def isWhite (c : Char) : Bool := c == ' ' || c == '\t'

/-- The byte order mark, which takes no column. -/
def byteOrderMark : Char := Char.ofNat 0xfeff

/-- The place behind a character, with the end in it. -/
def spotBehind (c : Char) (number line column : Nat) : Spot :=
  if isBreak c then ⟨endChar, number + 1, line + 1, 0⟩
  else if c == byteOrderMark then ⟨endChar, number + 1, line, column⟩
  else ⟨endChar, number + 1, line, column + 1⟩

/-- The characters of a document with their places. -/
def spotsFrom (number line column : Nat) : List Char → List Spot
  | [] => [⟨endChar, number, line, column⟩]
  | [c] => [⟨c, number, line, column⟩, spotBehind c number line column]
  | c :: d :: cs =>
    if c == Text.halfMark then
      ⟨c, number, line, column⟩ :: ⟨d, number, line, column⟩ :: spotsFrom (number + 1) line (column + 1) cs
    else
      let next := spotBehind c number line column
      ⟨c, number, line, column⟩ :: spotsFrom next.number next.line next.column (d :: cs)

/-- A line feed alone ends a line, whatever the text had for it. -/
def unifyLineEnds : List Char → List Char
  | [] => []
  | '\r' :: '\n' :: cs => '\n' :: unifyLineEnds cs
  | '\r' :: cs => '\n' :: unifyLineEnds cs
  | c :: cs => c :: unifyLineEnds cs

/-- The symbols that a document may hold. -/
def allowedRanges : List (Nat × Nat) := [
  (0x9, 0xa), (0xd, 0xd), (0x20, 0x7e), (0x85, 0x85), (0xa0, 0xd7ff), (0xe000, 0xfffd),
  (0x10000, 0x10ffff)]

/-- Whether a document may hold a symbol. -/
def isAllowed (x : Text.Symbol) : Bool := Text.inRanges allowedRanges x.number

/-! ## Reading ahead -/

/-- The character that stands next. -/
def peek (s : List Spot) : Char := (s.head?.map (·.char)).getD endChar

/-- The character a number of places further on. -/
def peekAt (n : Nat) (s : List Spot) : Char := peek (s.drop n)

/-- The column of the next character. -/
def columnOf (s : List Spot) : Nat := (s.head?.map (·.column)).getD 0

/-- The line of the next character. -/
def lineOf (s : List Spot) : Nat := (s.head?.map (·.line)).getD 0

/-- The number of the next character in the document. -/
def numberOf (s : List Spot) : Nat := (s.head?.map (·.number)).getD 0

/-- The next characters that pass a test, and what is left behind them. The end passes none. -/
def span (p : Char → Bool) : List Spot → List Char × List Spot
  | [] => ([], [])
  | a :: rest =>
    if a.char != endChar && p a.char then
      let (cs, left) := span p rest
      (a.char :: cs, left)
    else ([], a :: rest)

/-- What is left behind the next characters that pass a test. -/
def skip (p : Char → Bool) (s : List Spot) : List Spot := (span p s).2

theorem length_span_le (p : Char → Bool) (s : List Spot) : (span p s).2.length ≤ s.length := by
  induction s with
  | nil => exact Nat.le_refl _
  | cons a rest ih =>
    simp only [span]
    split
    · simp only [List.length_cons]
      omega
    · exact Nat.le_refl _

theorem length_skip_le (p : Char → Bool) (s : List Spot) : (skip p s).length ≤ s.length :=
  length_span_le p s

/-- A character that passes is taken. -/
theorem length_span_lt {p : Char → Bool} {s : List Spot} (h : peek s ≠ endChar)
    (hp : p (peek s) = true) : (span p s).2.length < s.length := by
  cases s with
  | nil => exact absurd rfl h
  | cons a rest =>
    change a.char ≠ endChar at h
    change p a.char = true at hp
    have := length_span_le p rest
    simp only [span, bne_iff_ne.mpr h, hp, Bool.and_true, ↓reduceIte, List.length_cons]
    omega

/-- Before the end there is a character to take. -/
theorem length_drop_lt {n : Nat} {s : List Spot} (h : peek s ≠ endChar) (hn : 0 < n) :
    (s.drop n).length < s.length := by
  cases s with
  | nil => exact absurd rfl h
  | cons a rest =>
    simp only [List.length_drop, List.length_cons]
    omega

/-- Whether a mark of three equal characters stands next. -/
def atMark (c : Char) (s : List Spot) : Bool :=
  peek s == c && peekAt 1 s == c && peekAt 2 s == c && isSpace (peekAt 3 s)

/-- Whether a mark that begins or ends a document stands next. -/
def atDocumentMark (s : List Spot) : Bool := atMark '-' s || atMark '.' s

end ApiDocs.Yaml
