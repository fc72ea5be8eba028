import ApiDocs.Text.Hex
import ApiDocs.Yaml.Spot

/-!
# Scalars as they are written

A scalar is written plain, between quotes, or as a block of lines. Each reader takes the place behind
what introduces the scalar and gives its text with what is left.

* `plain`: a plain scalar, whose lines are folded;
* `quotedScalar`: a scalar between quotes, whose lines are folded;
* `blockScalar`: a block of lines, kept or folded.

A line break between two lines of text is a space when lines are folded; of several line breaks the
first is dropped. No reader leaves more than it was given, as the lemmas on lengths say.
-/

namespace ApiDocs.Yaml

/-- What some line breaks between lines of text come to, the first being given apart. -/
def foldBreaks (first : Char) (more : List Char) : List Char :=
  (if first != '\n' then [first] else if more.isEmpty then [' '] else []) ++ more

/-- A line break as it is kept. -/
def keptBreak (c : Char) : Char := if c == Char.ofNat 0x85 then '\n' else c

/-! ## Plain scalars -/

/-- Where a plain scalar is read: the least column of its lines, and whether inside brackets. -/
structure PlainContext where
  indent : Int
  inFlow : Bool

/-- The brackets and the comma, which end a plain scalar inside brackets. -/
def isFlowMark (c : Char) : Bool := c ∈ [',', '[', ']', '{', '}']

/-- Whether a plain scalar ends before the next character. -/
def endsPlain (inFlow : Bool) (c next : Char) : Bool :=
  isSpace c || (c == ':' && (isSpace next || (inFlow && isFlowMark next)))
    || (inFlow && (c == '?' || isFlowMark c))

/-- The characters of one word of a plain scalar. -/
def plainWord (inFlow : Bool) : List Spot → List Char × List Spot
  | [] => ([], [])
  | a :: rest =>
    if endsPlain inFlow a.char (peek rest) then ([], a :: rest)
    else
      let (cs, left) := plainWord inFlow rest
      (a.char :: cs, left)

/-- The line breaks that stand next, among spaces; none is given at a mark between documents. -/
def plainBreaks : List Spot → Option (List Char) × List Spot
  | [] => (some [], [])
  | a :: rest =>
    if a.char == ' ' then plainBreaks rest
    else if isBreak a.char then
      if atDocumentMark rest then (none, rest)
      else
        match plainBreaks rest with
        | (none, left) => (none, left)
        | (some more, left) => (some (keptBreak a.char :: more), left)
    else (some [], a :: rest)

/-- What stands between two words: the text for it, whether a line was ended, and what is left. No
text means that the scalar ends here. -/
def plainSpaces (s : List Spot) : List Char × Bool × List Spot :=
  let (spaces, s) := span (· == ' ') s
  match s with
  | [] => (spaces, false, [])
  | a :: rest =>
    if isBreak a.char then
      if atDocumentMark rest then ([], true, rest)
      else
        match plainBreaks rest with
        | (none, left) => ([], true, left)
        | (some more, left) => (foldBreaks (keptBreak a.char) more, true, left)
    else (spaces, false, a :: rest)

theorem length_plainWord_le (inFlow : Bool) (s : List Spot) :
    (plainWord inFlow s).2.length ≤ s.length := by
  induction s with
  | nil => exact Nat.le_refl _
  | cons a rest ih =>
    simp only [plainWord]
    split
    · exact Nat.le_refl _
    · simp only [List.length_cons]
      omega

/-- A word that is not empty takes characters. -/
theorem length_lt_of_plainWord {inFlow : Bool} {s left : List Spot} {c : Char} {word : List Char}
    (h : plainWord inFlow s = (c :: word, left)) : left.length < s.length := by
  cases s with
  | nil => simp [plainWord] at h
  | cons a rest =>
    have := length_plainWord_le inFlow rest
    simp only [plainWord] at h
    split at h
    · simp at h
    · simp only [Prod.mk.injEq] at h
      simp only [← h.2, List.length_cons]
      omega

theorem length_plainBreaks_le (s : List Spot) : (plainBreaks s).2.length ≤ s.length := by
  fun_induction plainBreaks s <;> simp_all only [List.length_cons] <;> omega

theorem length_plainSpaces_le (s : List Spot) : (plainSpaces s).2.2.length ≤ s.length := by
  have := length_span_le (· == ' ') s
  simp only [plainSpaces]
  split
  · exact Nat.zero_le _
  · rename_i a rest h
    have := length_plainBreaks_le rest
    simp only [h, List.length_cons] at *
    repeat' split
    all_goals simp_all only [List.length_cons]
    all_goals omega

/-- A plain scalar: its text, whether it ended a line, and what is left. -/
def plain (ctx : PlainContext) (s : List Spot) : List Char × Bool × List Spot :=
  if peek s == '#' then ([], false, s)
  else
    match h : plainWord ctx.inFlow s with
    | ([], left) => ([], false, left)
    | (c :: word, left) =>
      match h' : plainSpaces left with
      | (spaces, ended, next) =>
        if spaces.isEmpty || peek next == '#' || (!ctx.inFlow && columnOf next < ctx.indent) then
          (c :: word, ended, next)
        else
          have : next.length ≤ left.length := by
            have := length_plainSpaces_le left
            rwa [h'] at this
          have : left.length < s.length := length_lt_of_plainWord h
          match plain ctx next with
          | ([], _, left) => (c :: word, ended, left)
          | (more, ended', left) => (c :: word ++ spaces ++ more, ended', left)
termination_by s.length

theorem length_plain_le (ctx : PlainContext) (s : List Spot) : (plain ctx s).2.2.length ≤ s.length := by
  fun_induction plain ctx s <;> grind [length_plainSpaces_le, length_plainWord_le]

/-- A plain scalar takes characters, where it does not begin with what ends it. -/
theorem length_plain_lt (ctx : PlainContext) {s : List Spot} (h : peek s ≠ '#')
    (hs : endsPlain ctx.inFlow (peek s) (peekAt 1 s) = false) (he : peek s ≠ endChar) :
    (plain ctx s).2.2.length < s.length := by
  cases s with
  | nil => exact absurd rfl he
  | cons a rest =>
    have hw : plainWord ctx.inFlow (a :: rest) =
        (a.char :: (plainWord ctx.inFlow rest).1, (plainWord ctx.inFlow rest).2) := by
      have : endsPlain ctx.inFlow a.char (peek rest) = false := hs
      simp [plainWord, this]
    have hl := length_lt_of_plainWord hw
    fun_cases plain ctx (a :: rest) <;> grind [length_plainSpaces_le, length_plain_le]

/-! ## Quoted scalars -/

/-- The character that a letter behind a backslash stands for. -/
def escapedChar? (c : Char) : Option Char :=
  if c == '0' then some (Char.ofNat 0x0)
  else if c == 'a' then some (Char.ofNat 0x7)
  else if c == 'b' then some (Char.ofNat 0x8)
  else if c == 't' || c == '\t' then some '\t'
  else if c == 'n' then some '\n'
  else if c == 'v' then some (Char.ofNat 0xb)
  else if c == 'f' then some (Char.ofNat 0xc)
  else if c == 'r' then some '\r'
  else if c == 'e' then some (Char.ofNat 0x1b)
  else if c == ' ' || c == '"' || c == '\\' || c == '/' then some c
  else if c == 'N' then some (Char.ofNat 0x85)
  else if c == '_' then some (Char.ofNat 0xa0)
  else if c == 'L' then some (Char.ofNat 0x2028)
  else if c == 'P' then some (Char.ofNat 0x2029)
  else none

/-- How many hexadecimal digits follow a letter behind a backslash. -/
def escapeWidth? (c : Char) : Option Nat :=
  if c == 'x' then some 2 else if c == 'u' then some 4 else if c == 'U' then some 8 else none

/-- The code point of some hexadecimal digits, and what is left behind them. -/
def hexEscape? (width : Nat) (s : List Spot) : Option (Nat × List Spot) :=
  (Text.hexNumber? ((s.take width).map (·.char))).bind fun n =>
    if width ≤ s.length then some (n, s.drop width) else none

/-- What a number behind a backslash stands for, or the number if it is too great for a character. -/
def escapedNumber? (width : Nat) (s : List Spot) : Option (Except Nat (List Char) × List Spot) :=
  (hexEscape? width s).map fun (n, left) =>
    (if n < 0x110000 then .ok (Text.Symbol.ofNumber n).chars else .error n, left)

/-- The line breaks that stand next, among blanks. A mark between documents must not stand there. -/
def quotedBreaks (s : List Spot) : Option (List Char × List Spot) :=
  if atDocumentMark s then none
  else
    match h : skip isWhite s with
    | [] => some ([], [])
    | a :: rest =>
      have : rest.length < s.length := by
        have := length_skip_le isWhite s
        rw [h] at this
        exact this
      if isBreak a.char then
        (quotedBreaks rest).map fun (more, left) => (keptBreak a.char :: more, left)
      else some ([], a :: rest)
termination_by s.length

theorem length_le_of_quotedBreaks {s left : List Spot} {cs : List Char}
    (h : quotedBreaks s = some (cs, left)) : left.length ≤ s.length := by
  fun_induction quotedBreaks s generalizing cs left <;> grind [length_skip_le, Option.map_eq_some_iff]

/-- The blanks and line breaks that stand next, folded. -/
def quotedSpaces (s : List Spot) : Option (List Char × List Spot) :=
  match span isWhite s with
  | (_, []) => none
  | (blanks, a :: rest) =>
    if a.char == endChar then none
    else if isBreak a.char then
      (quotedBreaks rest).map fun (more, left) => (foldBreaks (keptBreak a.char) more, left)
    else some (blanks, a :: rest)

theorem quotedSpaces_left {s left : List Spot} {cs : List Char}
    (h : quotedSpaces s = some (cs, left)) :
    left.length < (span isWhite s).2.length
      ∨ left = (span isWhite s).2 ∧ isBreakOrEnd (peek left) = false := by
  unfold quotedSpaces at h
  split at h
  · cases h
  · rename_i a rest e
    split at h
    · cases h
    · rename_i he
      split at h
      · obtain ⟨⟨more, left'⟩, hb, e'⟩ := Option.map_eq_some_iff.mp h
        have := length_le_of_quotedBreaks hb
        cases e'
        rw [e, List.length_cons]
        omega
      · rename_i hb
        cases h
        rw [e]
        exact .inr ⟨rfl, by simp_all [isBreakOrEnd, peek]⟩

/-- What stands between words takes characters. -/
theorem length_lt_of_quotedSpaces {s left : List Spot} {cs : List Char}
    (h : quotedSpaces s = some (cs, left)) (hs : isSpace (peek s) = true) :
    left.length < s.length := by
  cases hp : isWhite (peek s) with
  | true =>
    have := length_span_lt (p := isWhite) (s := s) (by grind [isWhite, endChar]) hp
    rcases quotedSpaces_left h with h | ⟨rfl, -⟩ <;> omega
  | false =>
    have hn : (span isWhite s).2 = s := by
      cases s with
      | nil => rfl
      | cons a rest =>
        have : isWhite a.char = false := hp
        simp [span, this]
    rw [← hn]
    rcases quotedSpaces_left h with h | ⟨rfl, hb⟩
    · exact h
    · rw [hn] at hb
      simp_all [isSpace, isWhite]

/-- A piece of a scalar between quotes. -/
inductive Piece
  | chars (cs : List Char)
  /-- A number that is too great for a character. -/
  | noCharacter (number : Nat)
  | closing

/-- A piece of a scalar between double quotes, from a backslash on. -/
def doubleEscape (s : List Spot) : Option (Piece × List Spot) :=
  match s with
  | [] => none
  | a :: rest =>
    match escapedChar? a.char with
    | some c => some (.chars [c], rest)
    | none =>
      match escapeWidth? a.char with
      | some width =>
        (escapedNumber? width rest).map fun
          | (.ok cs, left) => (.chars cs, left)
          | (.error n, left) => (.noCharacter n, left)
      | none =>
        if isBreak a.char then (quotedBreaks rest).map fun (cs, left) => (.chars cs, left) else none

theorem length_le_of_hexEscape? {width n : Nat} {s left : List Spot}
    (h : hexEscape? width s = some (n, left)) : left.length ≤ s.length := by
  obtain ⟨m, -, h⟩ := Option.bind_eq_some_iff.mp h
  split at h
  · cases h
    simp
  · cases h

theorem length_le_of_escapedNumber? {width : Nat} {c : Except Nat (List Char)} {s left : List Spot}
    (h : escapedNumber? width s = some (c, left)) : left.length ≤ s.length := by
  obtain ⟨⟨n, left'⟩, h', e⟩ := Option.map_eq_some_iff.mp h
  have := length_le_of_hexEscape? h'
  cases e
  exact this

theorem length_le_of_doubleEscape {s left : List Spot} {piece : Piece}
    (h : doubleEscape s = some (piece, left)) : left.length ≤ s.length := by
  unfold doubleEscape at h
  split at h
  · cases h
  · rw [List.length_cons]
    split at h
    · cases h
      omega
    · split at h
      · obtain ⟨⟨c, left'⟩, h', e⟩ := Option.map_eq_some_iff.mp h
        have := length_le_of_escapedNumber? h'
        cases c <;> cases e <;> omega
      · split at h
        · obtain ⟨⟨cs, left'⟩, h', e⟩ := Option.map_eq_some_iff.mp h
          have := length_le_of_quotedBreaks h'
          cases e
          omega
        · cases h

/-- The next piece of a scalar between quotes. -/
def quotedPiece (quote : Char) (s : List Spot) : Option (Piece × List Spot) :=
  match s with
  | [] => none
  | a :: rest =>
    if a.char == quote then
      if quote != '"' && peek rest == quote then some (.chars [quote], rest.drop 1)
      else some (.closing, rest)
    else if quote == '"' && a.char == '\\' then doubleEscape rest
    else if isSpace a.char then (quotedSpaces s).map fun (cs, left) => (.chars cs, left)
    else some (.chars [a.char], rest)

/-- A piece takes characters. -/
theorem length_lt_of_quotedPiece {quote : Char} {s left : List Spot} {piece : Piece}
    (h : quotedPiece quote s = some (piece, left)) : left.length < s.length := by
  unfold quotedPiece at h
  split at h
  · cases h
  · rename_i a rest
    split at h
    · split at h <;> cases h <;> simp only [List.length_drop, List.length_cons] <;> omega
    · split at h
      · have := length_le_of_doubleEscape h
        rw [List.length_cons]
        omega
      · split at h
        · rename_i hs
          obtain ⟨⟨cs, left'⟩, h', e⟩ := Option.map_eq_some_iff.mp h
          cases e
          exact length_lt_of_quotedSpaces h' hs
        · cases h
          simp

/-- A scalar behind its opening quote, up to the first number that is too great for a character. -/
def quotedScalar (quote : Char) (s : List Spot) : Option (Except Nat (List Char) × List Spot) :=
  match h : quotedPiece quote s with
  | none => none
  | some (.closing, left) => some (.ok [], left)
  | some (.noCharacter n, left) => some (.error n, left)
  | some (.chars cs, left) =>
    have : left.length < s.length := length_lt_of_quotedPiece h
    (quotedScalar quote left).map fun (more, left) => (more.map (cs ++ ·), left)
termination_by s.length

theorem length_le_of_quotedScalar {quote : Char} {s left : List Spot} {cs : Except Nat (List Char)}
    (h : quotedScalar quote s = some (cs, left)) : left.length ≤ s.length := by
  fun_induction quotedScalar quote s generalizing cs left with
  | case1 => cases h
  | case2 s left' h' | case3 s n left' h' =>
    have := length_lt_of_quotedPiece h'
    cases h
    omega
  | case4 s cs' left' h' this ih =>
    obtain ⟨⟨more, left''⟩, h'', e⟩ := Option.map_eq_some_iff.mp h
    have := ih h''
    cases e
    omega

/-! ## Block scalars -/

/-- What becomes of the line breaks that end a block. -/
inductive Chomping
  | clip
  | strip
  | keep
deriving DecidableEq

/-- The sign for the line breaks at the end. -/
def chomping? (c : Char) : Option Chomping :=
  if c == '+' then some .keep else if c == '-' then some .strip else none

/-- The digit for the indentation. Zero is none. -/
def increment? (c : Char) : Option Nat :=
  if '1' ≤ c && c ≤ '9' then some (c.toNat - 0x30) else none

/-- What stands behind the sign of a block, in either order. -/
def blockHeader (s : List Spot) : Chomping × Option Nat × List Spot :=
  match chomping? (peek s) with
  | some chomping =>
    let s := s.drop 1
    match increment? (peek s) with
    | some n => (chomping, some n, s.drop 1)
    | none => (chomping, none, s)
  | none =>
    match increment? (peek s) with
    | some n =>
      let s := s.drop 1
      match chomping? (peek s) with
      | some chomping => (chomping, some n, s.drop 1)
      | none => (.clip, some n, s)
    | none => (.clip, none, s)

/-- What is left behind spaces and a comment. -/
def skipComment (s : List Spot) : List Spot :=
  let s := skip (· == ' ') s
  if peek s == '#' then skip (fun c => !isBreakOrEnd c) s else s

theorem length_skipComment_le (s : List Spot) : (skipComment s).length ≤ s.length := by
  have hs := length_skip_le (· == ' ') s
  simp only [skipComment]
  split
  · exact Nat.le_trans (length_skip_le _ _) hs
  · exact hs

/-- The rest of the line of a header. A comment does not follow the signs at once. -/
def headerEnd (s : List Spot) : Option (List Spot) :=
  if peek s == '#' then none
  else
    let s := skipComment s
    if isBreak (peek s) then some (s.drop 1) else if peek s == endChar then some s else none

/-- The breaks of the empty lines a block begins with, and the greatest column among them. -/
def leadingLines (deepest : Nat) : List Spot → List Char × Nat × List Spot
  | [] => ([], deepest, [])
  | a :: rest =>
    if a.char == ' ' then leadingLines (max deepest (columnOf rest)) rest
    else if isBreak a.char then
      let (more, deepest, left) := leadingLines deepest rest
      (keptBreak a.char :: more, deepest, left)
    else ([], deepest, a :: rest)

/-- The breaks of empty lines, with the indentation of the line behind them taken off. -/
def blockBreaks (indent : Nat) : List Spot → List Char × List Spot
  | [] => ([], [])
  | a :: rest =>
    if a.char == ' ' && a.column < indent then blockBreaks indent rest
    else if isBreak a.char then
      let (more, left) := blockBreaks indent rest
      (keptBreak a.char :: more, left)
    else ([], a :: rest)

theorem length_blockBreaks_le (indent : Nat) (s : List Spot) :
    (blockBreaks indent s).2.length ≤ s.length := by
  fun_induction blockBreaks indent s <;> grind

/-- A line with the break that ends it, if there is one. -/
def blockLine (s : List Spot) : List Char × List Char × List Spot :=
  let (line, rest) := span (fun c => !isBreakOrEnd c) s
  if isBreak (peek rest) then (line, [keptBreak (peek rest)], rest.drop 1) else (line, [], rest)

/-- A line takes characters. -/
theorem length_blockLine_lt {s : List Spot} (h : peek s ≠ endChar) :
    (blockLine s).2.2.length < s.length := by
  have hle := length_span_le (fun c => !isBreakOrEnd c) s
  simp only [blockLine]
  split
  · rename_i hb
    have := length_drop_lt (n := 1) (s := (span (fun c => !isBreakOrEnd c) s).2)
      (by rintro e; simp [e, isBreak, endChar] at hb) Nat.one_pos
    exact Nat.lt_of_lt_of_le this hle
  · rename_i hb
    cases hs : isBreakOrEnd (peek s) with
    | false => exact length_span_lt h (by simp [hs])
    | true =>
      cases s with
      | nil => exact absurd rfl h
      | cons a rest =>
        have : isBreakOrEnd a.char = true := hs
        simp only [span, this] at hb
        simp_all [isBreakOrEnd, peek]

/-- The lines of a block from a first one on, the breaks before it being given. What they end with
is given apart: the break of the last line, and those behind it. -/
def blockLines (folded : Bool) (indent : Nat) (before : List Char) (s : List Spot) :
    List Char × List Char × List Char × List Spot :=
  if he : columnOf s != indent || peek s == endChar then ([], [], before, s)
  else
    let startsBlank := isWhite (peek s)
    match h : blockLine s with
    | (line, lineBreak, rest) =>
      match h' : blockBreaks indent rest with
      | (breaks, next) =>
        have : next.length ≤ rest.length := by
          have := length_blockBreaks_le indent rest
          rwa [h'] at this
        have : rest.length < s.length := by
          have := length_blockLine_lt (s := s) (by simp_all)
          rwa [h] at this
        if columnOf next == indent && peek next != endChar then
          let joint :=
            if folded && lineBreak == ['\n'] && !startsBlank && !isWhite (peek next) then
              if breaks.isEmpty then [' '] else []
            else lineBreak
          let (more, last, after, left) := blockLines folded indent breaks next
          (before ++ line ++ joint ++ more, last, after, left)
        else (before ++ line, lineBreak, breaks, next)
termination_by s.length

theorem length_blockHeader_le (s : List Spot) : (blockHeader s).2.2.length ≤ s.length := by
  simp only [blockHeader]
  repeat' split
  all_goals simp only [List.length_drop]
  all_goals omega

theorem length_le_of_headerEnd {s left : List Spot} (h : headerEnd s = some left) :
    left.length ≤ s.length := by
  have := length_skipComment_le s
  simp only [headerEnd] at h
  grind [List.length_drop]

theorem length_leadingLines_le (deepest : Nat) (s : List Spot) :
    (leadingLines deepest s).2.2.length ≤ s.length := by
  fun_induction leadingLines deepest s <;> grind

theorem length_blockLines_le (folded : Bool) (indent : Nat) (before : List Char) (s : List Spot) :
    (blockLines folded indent before s).2.2.2.length ≤ s.length := by
  fun_induction blockLines folded indent before s <;> grind

/-- The breaks before the first line of a block, and the indentation, which is given or is the
greatest in the empty lines, but not less than a least one. -/
def blockStart (least : Nat) (increment : Option Nat) (s : List Spot) :
    List Char × Nat × List Spot :=
  match increment with
  | some n =>
    let (breaks, left) := blockBreaks (least + n - 1) s
    (breaks, least + n - 1, left)
  | none =>
    let (breaks, deepest, left) := leadingLines 0 s
    (breaks, max least deepest, left)

theorem length_blockStart_le (least : Nat) (increment : Option Nat) (s : List Spot) :
    (blockStart least increment s).2.2.length ≤ s.length := by
  cases increment
  · exact length_leadingLines_le 0 s
  · exact length_blockBreaks_le _ s

/-- The text of a block behind its header. -/
def blockText (folded : Bool) (chomping : Chomping) (least : Nat) (increment : Option Nat)
    (s : List Spot) : List Char × List Spot :=
  let (breaks, indent, s) := blockStart least increment s
  let (lines, last, after, left) := blockLines folded indent breaks s
  match chomping with
  | .strip => (lines, left)
  | .clip => (lines ++ last, left)
  | .keep => (lines ++ last ++ after, left)

theorem length_blockText_le (folded : Bool) (chomping : Chomping) (least : Nat)
    (increment : Option Nat) (s : List Spot) :
    (blockText folded chomping least increment s).2.length ≤ s.length := by
  have hs := length_blockStart_le least increment s
  have hl := length_blockLines_le folded (blockStart least increment s).2.1
    (blockStart least increment s).1 (blockStart least increment s).2.2
  cases chomping <;> exact Nat.le_trans hl hs

/-- A block behind its sign, in a block of a given indentation. -/
def blockScalar (folded : Bool) (indent : Int) (s : List Spot) : Option (List Char × List Spot) :=
  let (chomping, increment, s) := blockHeader s
  (headerEnd s).map (blockText folded chomping (max (indent + 1) 1).toNat increment)

theorem length_le_of_blockScalar {folded : Bool} {indent : Int} {s left : List Spot}
    {cs : List Char} (h : blockScalar folded indent s = some (cs, left)) :
    left.length ≤ s.length := by
  unfold blockScalar at h
  have hh := length_blockHeader_le s
  generalize blockHeader s = header at h hh
  obtain ⟨chomping, increment, t⟩ := header
  obtain ⟨s', h', e⟩ := Option.map_eq_some_iff.mp h
  have hl := length_blockText_le folded chomping (max (indent + 1) 1).toNat increment s'
  rw [e] at hl
  exact Nat.le_trans hl (Nat.le_trans (length_le_of_headerEnd h') hh)

end ApiDocs.Yaml
