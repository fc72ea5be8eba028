import ApiDocs.Text.Hex
import ApiDocs.Text.Letter
import ApiDocs.Yaml.Spot

/-!
# Names and tags

A node can have a name, by which it is meant again in other places, and a tag for its kind. A tag is
written in full between angle brackets, or behind a handle that stands for its beginning; the handle is an
exclamation mark, or a word between two of them. Bytes behind percent signs are the UTF-8 of a text.

* `name?`: a name behind its sign;
* `Tag.read?`: a tag, from its exclamation mark on.
-/

namespace ApiDocs.Yaml

/-- Letters and digits of ASCII, the hyphen and the underscore. -/
def isNameChar (c : Char) : Bool := c.isAlphanum || c == '-' || c == '_'

/-- The next characters that can stand in a name, at least one. -/
def word? (s : List Spot) : Option (List Char × List Spot) :=
  match span isNameChar s with
  | ([], _) => none
  | (cs, left) => some (cs, left)

/-- What may stand behind a name. -/
def endsName (c : Char) : Bool :=
  isSpace c || c ∈ ['?', ':', ',', ']', '}', '%', '@', Char.ofNat 0x60]

/-- A name behind its sign. -/
def name? (s : List Spot) : Option (String × List Spot) := do
  let (cs, left) ← word? s
  if endsName (peek left) then some (String.ofList cs, left) else none

/-! ## Identifiers of tags -/

/-- The characters that stand for themselves in an identifier. -/
def isIdentifierChar (c : Char) : Bool :=
  c.isAlphanum || c ∈ ['-', ';', '/', '?', ':', '@', '&', '=', '+', '$', ',', '_', '.', '!', '~', '*',
    Char.ofNat 0x27, '(', ')', '[', ']']

/-- The bytes behind percent signs that stand next. -/
def escapedBytes? : List Spot → Option (List UInt8 × List Spot)
  | a :: b :: c :: rest =>
    if a.char == '%' then do
      let n ← Text.hexNumber? [b.char, c.char]
      let (bytes, left) ← escapedBytes? rest
      some (UInt8.ofNat n :: bytes, left)
    else some ([], a :: b :: c :: rest)
  | s => if peek s == '%' then none else some ([], s)

theorem length_le_of_escapedBytes? {s left : List Spot} {bytes : List UInt8}
    (h : escapedBytes? s = some (bytes, left)) : left.length ≤ s.length := by
  fun_induction escapedBytes? s generalizing bytes left with
  | case1 a b c rest ha ih =>
    obtain ⟨n, -, h⟩ := Option.bind_eq_some_iff.mp h
    obtain ⟨⟨more, left'⟩, h', e⟩ := Option.bind_eq_some_iff.mp h
    have := ih h'
    cases e
    simp only [List.length_cons]
    omega
  | case2 => cases h; exact Nat.le_refl _
  | case3 => cases h
  | case4 => cases h; exact Nat.le_refl _

/-- A percent sign is taken with the byte behind it. -/
theorem length_lt_of_escapedBytes? {s left : List Spot} {bytes : List UInt8} (hp : peek s = '%')
    (h : escapedBytes? s = some (bytes, left)) : left.length < s.length := by
  unfold escapedBytes? at h
  split at h
  · rename_i a b c rest
    have ha : a.char = '%' := hp
    rw [ha] at h
    obtain ⟨n, -, h⟩ := Option.bind_eq_some_iff.mp h
    obtain ⟨⟨more, left'⟩, h', e⟩ := Option.bind_eq_some_iff.mp h
    have := length_le_of_escapedBytes? h'
    cases e
    simp only [List.length_cons]
    omega
  · simp [hp] at h

/-- The text whose UTF-8 some bytes are. -/
def ofBytes? (bytes : List UInt8) : Option (List Char) :=
  (String.fromUTF8? ⟨bytes.toArray⟩).map fun s => s.toList.flatMap fun c => (Text.Symbol.char c).chars

/-- The characters of an identifier that stand next. -/
def identifierChars? (s : List Spot) : Option (List Char × List Spot) :=
  match h : span isIdentifierChar s with
  | (cs, left) =>
    if hp : peek left = '%' then
      match h' : escapedBytes? left with
      | none => none
      | some (bytes, left') =>
        have : left'.length < s.length := by
          have := length_span_le isIdentifierChar s
          rw [h] at this
          exact Nat.lt_of_lt_of_le (length_lt_of_escapedBytes? hp h') this
        match ofBytes? bytes, identifierChars? left' with
        | some text, some (more, left) => some (cs ++ text ++ more, left)
        | _, _ => none
    else some (cs, left)
termination_by s.length

theorem length_le_of_identifierChars? {s left : List Spot} {cs : List Char}
    (h : identifierChars? s = some (cs, left)) : left.length ≤ s.length := by
  fun_induction identifierChars? s generalizing cs left with
  | case1 => cases h
  | case2 s cs' left' h' hp bytes left'' hb this more left''' text hm ht ih =>
    have := ih hm
    cases h
    omega
  | case3 => cases h
  | case4 s cs' left' h' hp =>
    have := length_span_le isIdentifierChar s
    rw [h'] at this
    cases h
    exact this

/-- An identifier, which is not empty. -/
def identifier? (s : List Spot) : Option (String × List Spot) :=
  if isIdentifierChar (peek s) || peek s == '%' then
    (identifierChars? s).map fun (cs, left) => (String.ofList cs, left)
  else none

theorem length_le_of_identifier? {s left : List Spot} {text : String}
    (h : identifier? s = some (text, left)) : left.length ≤ s.length := by
  unfold identifier? at h
  split at h
  · obtain ⟨⟨cs, left'⟩, h', e⟩ := Option.map_eq_some_iff.mp h
    have := length_le_of_identifierChars? h'
    cases e
    exact this
  · cases h

/-! ## Tags -/

/-- A tag as it is written. -/
structure Tag where
  /-- What stands for the beginning of the tag, if anything does. -/
  handle : Option String
  suffix : String
deriving DecidableEq, Repr

namespace Tag

/-- A handle, from its exclamation mark on. -/
def handle? (s : List Spot) : Option (String × List Spot) :=
  if peek s != '!' then none
  else
    let (cs, left) := span isNameChar (s.drop 1)
    if peek left == '!' then some ("!" ++ String.ofList cs ++ "!", left.drop 1)
    else if peek (s.drop 1) == ' ' then some ("!", s.drop 1)
    else none

theorem length_le_of_handle? {s left : List Spot} {handle : String}
    (h : handle? s = some (handle, left)) : left.length ≤ (s.drop 1).length := by
  have := length_span_le isNameChar (s.drop 1)
  simp only [handle?] at h
  grind [List.length_drop]

/-- Whether a character ends a word. -/
def endsWord (c : Char) : Bool := c == ' ' || isBreakOrEnd c

/-- A tag without what has to stand behind it, from its exclamation mark on. -/
def start? (s : List Spot) : Option (Tag × List Spot) :=
  let rest := s.drop 1
  if peek rest == '<' then
    (identifier? (rest.drop 1)).bind fun (suffix, left) =>
      if peek left == '>' then some (⟨none, suffix⟩, left.drop 1) else none
  else if isSpace (peek rest) then some (⟨none, "!"⟩, rest)
  else if (span (fun c => !endsWord c) rest).1.contains '!' then
    (handle? s).bind fun (handle, left) =>
      (identifier? left).map fun (suffix, left) => (⟨some handle, suffix⟩, left)
  else (identifier? rest).map fun (suffix, left) => (⟨some "!", suffix⟩, left)

/-- A tag, from its exclamation mark on. -/
def read? (s : List Spot) : Option (Tag × List Spot) :=
  (start? s).bind fun (tag, left) => if endsWord (peek left) then some (tag, left) else none

theorem length_le_of_start? {s left : List Spot} {tag : Tag}
    (h : start? s = some (tag, left)) : left.length ≤ (s.drop 1).length := by
  simp only [start?] at h
  split at h
  · obtain ⟨⟨suffix, left'⟩, h', h⟩ := Option.bind_eq_some_iff.mp h
    have := length_le_of_identifier? h'
    grind [List.length_drop]
  · split at h
    · cases h
      exact Nat.le_refl _
    · split at h
      · obtain ⟨⟨handle, left'⟩, hh, h⟩ := Option.bind_eq_some_iff.mp h
        obtain ⟨⟨suffix, left''⟩, h', e⟩ := Option.map_eq_some_iff.mp h
        have := length_le_of_handle? hh
        have := length_le_of_identifier? h'
        cases e
        exact Nat.le_trans ‹left''.length ≤ _› ‹left'.length ≤ _›
      · obtain ⟨⟨suffix, left'⟩, h', e⟩ := Option.map_eq_some_iff.mp h
        have := length_le_of_identifier? h'
        cases e
        grind [List.length_drop]

/-- A tag takes its exclamation mark at least. -/
theorem length_lt_of_read? {s left : List Spot} {tag : Tag} (he : peek s ≠ endChar)
    (h : read? s = some (tag, left)) : left.length < s.length := by
  obtain ⟨⟨tag', left'⟩, h', h⟩ := Option.bind_eq_some_iff.mp h
  have := length_le_of_start? h'
  have := length_drop_lt (n := 1) he Nat.one_pos
  grind

end Tag

theorem length_le_of_name? {s left : List Spot} {name : String}
    (h : name? s = some (name, left)) : left.length ≤ s.length := by
  obtain ⟨⟨cs, left'⟩, h', h⟩ := Option.bind_eq_some_iff.mp h
  have := length_span_le isNameChar s
  simp only [word?] at h'
  grind

end ApiDocs.Yaml
