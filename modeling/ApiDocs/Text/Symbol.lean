/-!
# Symbols

UTF-16 writes a character above U+FFFF as a pair of two halves, whose numbers no character has. A text
that writes its characters by escapes can hold a half by itself. A symbol is a character or such a half,
and a text is a row of symbols.

In a string a symbol is the character that it is. Only a half, and the mark U+E000 itself, take two
characters, of which the first is the mark. Strings are in order as the numbers of their symbols are, and
one begins with another when their symbols do, so that most of what is done with texts need not know of
this.

* `symbols`, `ofSymbols`: the symbols of a text, and the text of some symbols;
* `symbols_ofSymbols`: symbols are read back from their text.
-/

namespace ApiDocs.Text

/-- The character behind which halves stand. -/
def halfMark : Char := Char.ofNat 0xe000

/-- A character, or a half of a pair that stands alone. -/
inductive Symbol
  | char (c : Char)
  /-- A half, by its place among all halves. -/
  | half (place : Fin 0x800)
deriving DecidableEq, Repr, Inhabited

namespace Symbol

/-- The number of a symbol. -/
def number : Symbol → Nat
  | char c => c.toNat
  | half place => 0xd800 + place

/-- The symbol of a number below 0x110000. -/
def ofNumber (n : Nat) : Symbol :=
  if h : 0xd800 ≤ n ∧ n < 0xe000 then half ⟨n - 0xd800, by omega⟩ else char (Char.ofNat n)

/-- Whether a symbol is a character that passes a test. -/
def passes (p : Char → Bool) : Symbol → Bool
  | char c => p c
  | half _ => false

/-- The characters of a string for a symbol. -/
def chars : Symbol → List Char
  | char c => if c = halfMark then [halfMark, Char.ofNat 0xe800] else [c]
  | half place => [halfMark, Char.ofNat (0xe000 + place)]

/-- The symbol that a character behind the mark stands for. -/
def behindMark? (c : Char) : Option Symbol :=
  if h : 0xe000 ≤ c.toNat ∧ c.toNat < 0xe800 then some (half ⟨c.toNat - 0xe000, by omega⟩)
  else if c.toNat = 0xe800 then some (char halfMark)
  else none

end Symbol

/-- The symbols that the characters of a string stand for. -/
def symbols : List Char → List Symbol
  | [] => []
  | [c] => [.char c]
  | c :: d :: cs =>
    if c = halfMark then
      match Symbol.behindMark? d with
      | some x => x :: symbols cs
      | none => .char c :: symbols (d :: cs)
    else .char c :: symbols (d :: cs)

/-- The text of some symbols. -/
def ofSymbols (xs : List Symbol) : String := String.ofList (xs.flatMap Symbol.chars)

theorem toNat_behindMark {n : Nat} (h : n ≤ 0x800) : (Char.ofNat (0xe000 + n)).toNat = 0xe000 + n := by
  have : (0xe000 + n).isValidChar := by
    simp only [Nat.isValidChar]
    omega
  exact congrArg Char.toNat (dif_pos this)

/-- A half is what stands behind the mark for it. -/
theorem behindMark?_half (place : Fin 0x800) :
    Symbol.behindMark? (Char.ofNat (0xe000 + place)) = some (.half place) := by
  have := toNat_behindMark (Nat.le_of_lt place.isLt)
  have h : 0xe000 ≤ 0xe000 + place.val ∧ 0xe000 + place.val < 0xe800 := by omega
  simp [Symbol.behindMark?, this, h]

/-- A character that is not the mark is a symbol by itself. -/
theorem symbols_cons_of_ne {c : Char} (h : c ≠ halfMark) (cs : List Char) :
    symbols (c :: cs) = .char c :: symbols cs := by
  cases cs <;> simp [symbols, h]

/-- The characters for a symbol are read as that symbol. -/
theorem symbols_chars_append (x : Symbol) (cs : List Char) :
    symbols (x.chars ++ cs) = x :: symbols cs := by
  cases x with
  | char c =>
    by_cases h : c = halfMark
    · subst h
      have : Symbol.behindMark? (Char.ofNat 0xe800) = some (.char halfMark) := by decide
      simp [Symbol.chars, symbols, this]
    · simp [Symbol.chars, h, symbols_cons_of_ne h]
  | half place => simp [Symbol.chars, symbols, behindMark?_half]

/-- Symbols are read back from their characters. -/
theorem symbols_flatMap_chars (xs : List Symbol) : symbols (xs.flatMap Symbol.chars) = xs := by
  induction xs with
  | nil => rfl
  | cons x xs ih => rw [List.flatMap_cons, symbols_chars_append, ih]

/-- Symbols are read back from their text. -/
theorem symbols_ofSymbols (xs : List Symbol) : symbols (ofSymbols xs).toList = xs := by
  rw [ofSymbols, String.toList_ofList, symbols_flatMap_chars]

end ApiDocs.Text
