import ApiDocs.Yaml.Token

/-!
# Cutting a document into tokens

A key is known as one only when its colon is found. Until then every place where a key may have
begun is a candidate: there is at most one at each level of brackets, it lasts to the end of its
line, and it is at most 1024 characters long.

* `Scan.step`: the next tokens; `Scan.length_lt_of_step`: every step but the last takes characters;
* `tokens`: all tokens of a document, up to its end or to where it breaks off.
-/

namespace ApiDocs.Yaml

/-- A place where a key may have begun. -/
structure Candidate where
  level : Nat
  /-- The number of tokens before it. -/
  position : Nat
  /-- Whether nothing else than a key may stand there. -/
  isRequired : Bool
  number : Nat
  line : Nat
  column : Nat

/-- How far a document is cut into tokens. -/
structure Scan where
  rest : List Spot
  /-- The tokens so far, last first. -/
  tokens : List Token := []
  /-- How many tokens there are. -/
  count : Nat := 0
  /-- How many brackets are open. -/
  level : Nat := 0
  /-- The column of the innermost block, and of the blocks around it. -/
  indent : Int := -1
  outer : List Int := []
  keyAllowed : Bool := true
  candidates : List Candidate := []

namespace Scan

/-! ## Blocks -/

/-- Adds a token. -/
def push (s : Scan) (t : Token) : Scan := { s with tokens := t :: s.tokens, count := s.count + 1 }

/-- Adds a token behind the first ones, of which there are as many as it is told. -/
def insert (s : Scan) (position : Nat) (t : Token) : Scan :=
  { s with tokens := s.tokens.insertIdx (s.count - position) t, count := s.count + 1 }

/-- Ends the blocks that are indented deeper than a column. -/
def unwind (column : Int) (s : Scan) : Scan :=
  if s.level != 0 then s else go s s.outer
where
  go (s : Scan) : List Int → Scan
    | [] => s
    | i :: outer =>
      if s.indent > column then
        go { s.push .blockEnd with indent := i, outer } outer
      else s

/-- Begins a block at a column, if it is deeper than the block around it. -/
def indentTo (column : Int) (s : Scan) : Option Scan :=
  if s.indent < column then some { s with indent := column, outer := s.indent :: s.outer } else none

/-- Begins a block at the next character with a token, if it is deeper than the block around it. -/
def openBlock (t : Token) (s : Scan) : Scan :=
  match s.indentTo (columnOf s.rest) with
  | some s => s.push t
  | none => s

/-! ## Candidates for keys -/

/-- Takes back the candidate of the present level, which must not be a required one. -/
def dropCandidate (s : Scan) : Option Scan :=
  if s.candidates.any fun c => c.level == s.level && c.isRequired then none
  else some { s with candidates := s.candidates.filter (·.level != s.level) }

/-- Makes the next character a candidate, where keys are allowed. -/
def addCandidate (s : Scan) : Option Scan :=
  if s.keyAllowed then
    s.dropCandidate.map fun s => { s with candidates :=
      { level := s.level, position := s.count
        isRequired := s.level == 0 && s.indent == columnOf s.rest
        number := numberOf s.rest, line := lineOf s.rest, column := columnOf s.rest }
        :: s.candidates }
  else some s

/-- Whether a candidate is no key any more. -/
def isStale (s : Scan) (c : Candidate) : Bool :=
  c.line != lineOf s.rest || numberOf s.rest - c.number > 1024

/-- Takes back the candidates that are no keys any more. -/
def dropStale (s : Scan) : Option Scan :=
  if s.candidates.any fun c => c.isRequired && s.isStale c then none
  else some { s with candidates := s.candidates.filter fun c => !s.isStale c }

/-! ## Single tokens -/

/-- Takes some characters as a token. -/
def take (n : Nat) (t : Token) (s : Scan) : Scan := { s.push t with rest := s.rest.drop n }

/-- The end of the document. -/
def finish (s : Scan) : Option Scan :=
  (s.unwind (-1)).dropCandidate.map fun s =>
    { s.push .streamEnd with keyAllowed := false, candidates := [] }

/-- A mark that begins or ends a document. -/
def documentMark (t : Token) (s : Scan) : Option Scan :=
  (s.unwind (-1)).dropCandidate.map fun s => { s.take 3 t with keyAllowed := false }

/-- An opening bracket. -/
def openFlow (t : Token) (s : Scan) : Option Scan :=
  s.addCandidate.map fun s => { s.take 1 t with level := s.level + 1, keyAllowed := true }

/-- A closing bracket. -/
def closeFlow (t : Token) (s : Scan) : Option Scan :=
  s.dropCandidate.map fun s => { s.take 1 t with level := s.level - 1, keyAllowed := false }

/-- A comma between brackets. -/
def flowEntry (s : Scan) : Option Scan :=
  { s with keyAllowed := true }.dropCandidate.map (take 1 .flowEntry)

/-- A mark that begins a block at its column, unless one is open there. -/
def blockMark (start mark : Token) (keyAllowed : Bool) (s : Scan) : Option Scan :=
  if s.level == 0 && !s.keyAllowed then none
  else
    let s := if s.level == 0 then s.openBlock start else s
    { s with keyAllowed }.dropCandidate.map (take 1 mark)

/-- A hyphen in front of an item. -/
def entry (s : Scan) : Option Scan := s.blockMark .listStart .entry true

/-- A question mark in front of a key. -/
def explicitKey (s : Scan) : Option Scan := s.blockMark .mapStart .key (s.level == 0)

/-- A colon. The candidate of its level, if there is one, turns out to be a key. -/
def value (s : Scan) : Option Scan :=
  match s.candidates.find? (·.level == s.level) with
  | some c =>
    let s := { s.insert c.position .key with
      candidates := s.candidates.filter (·.level != s.level)
      keyAllowed := false }
    let s :=
      if s.level == 0 then
        match s.indentTo c.column with
        | some s => s.insert c.position .mapStart
        | none => s
      else s
    some (s.take 1 .value)
  | none => s.blockMark .mapStart .value (s.level == 0)

/-- Takes a scalar up to what is left behind it. -/
def takeScalar (text : List Char) (isPlain : Bool) (left : List Spot) (s : Scan) : Scan :=
  { s.push (.scalar (String.ofList text) isPlain) with rest := left }

/-- A scalar between quotes. -/
def quotedToken (quote : Char) (s : Scan) : Except ScanFault Scan :=
  match s.addCandidate with
  | none => .error .malformed
  | some s =>
    match quotedScalar quote (s.rest.drop 1) with
    | none => .error .malformed
    | some (.error n, _) => .error (.noCharacter n)
    | some (.ok text, left) => .ok { s.takeScalar text false left with keyAllowed := false }

/-- A name behind its sign, for the node that follows or for one that stands elsewhere. -/
def nameToken (token : String → Token) (s : Scan) : Option Scan :=
  s.addCandidate.bind fun s =>
    (name? (s.rest.drop 1)).map fun (name, left) =>
      { s.push (token name) with rest := left, keyAllowed := false }

/-- A tag. -/
def tagToken (s : Scan) : Option Scan :=
  s.addCandidate.bind fun s =>
    (Tag.read? s.rest).map fun (tag, left) => { s.push (.tag tag) with rest := left, keyAllowed := false }

/-- A directive behind its percent sign. -/
def directiveToken (s : Scan) : Except ScanFault Scan :=
  match (s.unwind (-1)).dropCandidate with
  | none => .error .malformed
  | some s =>
    match Directive.read (s.rest.drop 1) with
    | .error fault => .error fault
    | .ok (d, left) => .ok { s.push (.directive d) with rest := left, keyAllowed := false }

/-- A block of lines. -/
def blockToken (folded : Bool) (s : Scan) : Option Scan := do
  let s ← { s with keyAllowed := true }.dropCandidate
  let (text, left) ← blockScalar folded s.indent (s.rest.drop 1)
  pure (s.takeScalar text false left)

/-- A plain scalar. Behind the end of its line a key may begin again. -/
def plainToken (s : Scan) : Option Scan :=
  s.addCandidate.map fun s =>
    let (text, ended, left) := plain ⟨s.indent + 1, s.level != 0⟩ s.rest
    { s.takeScalar text true left with keyAllowed := ended }

/-! ## All tokens -/

/-- Passes over blanks, comments and line ends. Behind a line end a key may begin. -/
def passBlanks (s : Scan) : Scan :=
  match h : skipComment s.rest with
  | [] => { s with rest := [] }
  | a :: left =>
    have : left.length < s.rest.length := by
      have := length_skipComment_le s.rest
      rw [h] at this
      exact this
    if isBreak a.char then
      passBlanks { s with rest := left, keyAllowed := s.keyAllowed || s.level == 0 }
    else { s with rest := a :: left }
termination_by s.rest.length

/-- Whether a plain scalar may begin with a character, given the one behind it. -/
def beginsPlain (inFlow : Bool) (c next : Char) : Bool :=
  !(isSpace c || c ∈ ['-', '?', ':', ',', '[', ']', '{', '}', '#', '&', '*', '!', '|', '>', '"', '%',
      '@', Char.ofNat 0x27, Char.ofNat 0x60])
    || (!isSpace next && (c == '-' || (!inFlow && (c == '?' || c == ':'))))

/-- The token that begins with the next character, unless it begins a directive or a quoted scalar. -/
def simpleToken (s : Scan) : Option Scan :=
  let c := peek s.rest
  let next := peekAt 1 s.rest
  let inFlow := s.level != 0
  if c == endChar then s.finish
  else if columnOf s.rest == 0 && atMark '-' s.rest then s.documentMark .documentStart
  else if columnOf s.rest == 0 && atMark '.' s.rest then s.documentMark .documentEnd
  else if c == '[' then s.openFlow .flowListStart
  else if c == '{' then s.openFlow .flowMapStart
  else if c == ']' then s.closeFlow .flowListEnd
  else if c == '}' then s.closeFlow .flowMapEnd
  else if c == ',' then s.flowEntry
  else if c == '-' && isSpace next then s.entry
  else if c == '?' && (inFlow || isSpace next) then s.explicitKey
  else if c == ':' && (inFlow || isSpace next) then s.value
  else if c == '*' then s.nameToken .alias
  else if c == '&' then s.nameToken .anchor
  else if c == '!' then s.tagToken
  else if c == '|' && !inFlow then s.blockToken false
  else if c == '>' && !inFlow then s.blockToken true
  else if beginsPlain inFlow c next then s.plainToken
  else none

/-- The token that begins with the next character. -/
def token (s : Scan) : Except ScanFault Scan :=
  let c := peek s.rest
  if c == '%' && columnOf s.rest == 0 then s.directiveToken
  else if c == '"' || c == Char.ofNat 0x27 then s.quotedToken c
  else ScanFault.require s.simpleToken

/-- The next tokens, with what ends before them. -/
def step (s : Scan) : Except ScanFault Scan :=
  match s.passBlanks.dropStale with
  | none => .error .malformed
  | some s => (s.unwind (columnOf s.rest)).token

/-- Whether the end is reached. -/
def isFinished (s : Scan) : Bool := s.tokens.head? == some .streamEnd

/-- The tokens that can be told before any more characters are read: those before the first candidate, which
may turn out to be a key. -/
def settled (s : Scan) : List Token :=
  let live := s.candidates.filter fun c => !s.isStale c
  (s.tokens.drop (s.count - live.foldl (fun n c => min n c.position) s.count)).reverse

/-! ## Every token takes characters -/

theorem length_passBlanks_le (s : Scan) : s.passBlanks.rest.length ≤ s.rest.length := by
  fun_induction passBlanks s with
  | case1 => exact Nat.zero_le _
  | case2 s a left h this hb ih => exact Nat.le_of_lt (Nat.lt_of_le_of_lt ih this)
  | case3 s a left h this hb => exact this

theorem rest_unwind (column : Int) (s : Scan) : (s.unwind column).rest = s.rest := by
  have go (s : Scan) (outer : List Int) : (unwind.go column s outer).rest = s.rest := by
    fun_induction unwind.go column s outer <;> simp_all [push]
  simp only [unwind]
  split
  · rfl
  · exact go s s.outer

theorem rest_of_dropStale {s next : Scan} (h : s.dropStale = some next) : next.rest = s.rest := by
  simp only [dropStale] at h
  grind

theorem rest_of_dropCandidate {s next : Scan} (h : s.dropCandidate = some next) :
    next.rest = s.rest := by
  simp only [dropCandidate] at h
  grind

/-- A candidate changes neither what is left nor how many brackets are open. -/
theorem rest_level_of_addCandidate {s next : Scan} (h : s.addCandidate = some next) :
    next.rest = s.rest ∧ next.level = s.level := by
  simp only [addCandidate] at h
  split at h
  · obtain ⟨t, ht, rfl⟩ := Option.map_eq_some_iff.mp h
    simp only [dropCandidate] at ht
    grind
  · cases h
    exact ⟨rfl, rfl⟩

theorem rest_openBlock (t : Token) (s : Scan) : (s.openBlock t).rest = s.rest := by
  simp only [openBlock, indentTo]
  split <;> grind [push]

theorem isFinished_of_finish {s next : Scan} (h : s.finish = some next) : next.isFinished = true := by
  obtain ⟨t, -, rfl⟩ := Option.map_eq_some_iff.mp h
  simp [isFinished, push]

theorem rest_of_documentMark {t : Token} {s next : Scan} (h : s.documentMark t = some next) :
    next.rest = s.rest.drop 3 := by
  obtain ⟨u, hu, rfl⟩ := Option.map_eq_some_iff.mp h
  simp [take, rest_of_dropCandidate hu, rest_unwind]

theorem rest_of_openFlow {t : Token} {s next : Scan} (h : s.openFlow t = some next) :
    next.rest = s.rest.drop 1 := by
  obtain ⟨u, hu, rfl⟩ := Option.map_eq_some_iff.mp h
  simp [take, (rest_level_of_addCandidate hu).1]

theorem rest_of_closeFlow {t : Token} {s next : Scan} (h : s.closeFlow t = some next) :
    next.rest = s.rest.drop 1 := by
  obtain ⟨u, hu, rfl⟩ := Option.map_eq_some_iff.mp h
  simp [take, rest_of_dropCandidate hu]

theorem rest_of_flowEntry {s next : Scan} (h : s.flowEntry = some next) :
    next.rest = s.rest.drop 1 := by
  obtain ⟨u, hu, rfl⟩ := Option.map_eq_some_iff.mp h
  simp [take, rest_of_dropCandidate hu]

theorem rest_of_blockMark {start mark : Token} {keyAllowed : Bool} {s next : Scan}
    (h : s.blockMark start mark keyAllowed = some next) : next.rest = s.rest.drop 1 := by
  simp only [blockMark] at h
  split at h
  · cases h
  · obtain ⟨u, hu, rfl⟩ := Option.map_eq_some_iff.mp h
    simp only [take, rest_of_dropCandidate hu]
    split
    · rw [rest_openBlock]
    · rfl

theorem rest_of_value {s next : Scan} (h : s.value = some next) : next.rest = s.rest.drop 1 := by
  simp only [value, indentTo] at h
  split at h
  · cases h
    grind [take, push, insert]
  · exact rest_of_blockMark h

theorem length_lt_of_quotedToken {quote : Char} {s next : Scan} (he : peek s.rest ≠ endChar)
    (h : s.quotedToken quote = .ok next) : next.rest.length < s.rest.length := by
  unfold quotedToken at h
  split at h
  · cases h
  · rename_i t ht
    split at h
    · cases h
    · cases h
    · rename_i text left hl
      have := length_le_of_quotedScalar hl
      rw [(rest_level_of_addCandidate ht).1] at this
      cases h
      exact Nat.lt_of_le_of_lt this (length_drop_lt he Nat.one_pos)

theorem length_lt_of_nameToken {token : String → Token} {s next : Scan} (he : peek s.rest ≠ endChar)
    (h : s.nameToken token = some next) : next.rest.length < s.rest.length := by
  obtain ⟨t, ht, h⟩ := Option.bind_eq_some_iff.mp h
  obtain ⟨⟨name, left⟩, hl, e⟩ := Option.map_eq_some_iff.mp h
  have := length_le_of_name? hl
  rw [(rest_level_of_addCandidate ht).1] at this
  cases e
  exact Nat.lt_of_le_of_lt this (length_drop_lt he Nat.one_pos)

/-- A tag takes its exclamation mark at least. -/
theorem length_lt_of_tagToken {s next : Scan} (he : peek s.rest ≠ endChar)
    (h : s.tagToken = some next) : next.rest.length < s.rest.length := by
  obtain ⟨t, ht, h⟩ := Option.bind_eq_some_iff.mp h
  obtain ⟨⟨tag, left⟩, hl, e⟩ := Option.map_eq_some_iff.mp h
  rw [(rest_level_of_addCandidate ht).1] at hl
  cases e
  exact Tag.length_lt_of_read? he hl

theorem length_lt_of_directiveToken {s next : Scan} (he : peek s.rest ≠ endChar)
    (h : s.directiveToken = .ok next) : next.rest.length < s.rest.length := by
  unfold directiveToken at h
  split at h
  · cases h
  · rename_i t ht
    split at h
    · cases h
    · rename_i d left hl
      have := Directive.length_le_of_read hl
      rw [rest_of_dropCandidate ht, rest_unwind] at this
      cases h
      exact Nat.lt_of_le_of_lt this (length_drop_lt he Nat.one_pos)

theorem length_lt_of_blockToken {folded : Bool} {s next : Scan} (he : peek s.rest ≠ endChar)
    (h : s.blockToken folded = some next) : next.rest.length < s.rest.length := by
  obtain ⟨t, ht, h⟩ := Option.bind_eq_some_iff.mp h
  obtain ⟨⟨text, left⟩, hl, h⟩ := Option.bind_eq_some_iff.mp h
  cases h
  have := length_le_of_blockScalar hl
  rw [rest_of_dropCandidate ht] at this
  exact Nat.lt_of_le_of_lt this (length_drop_lt he Nat.one_pos)

/-- What begins a plain scalar neither begins a comment nor ends the scalar. -/
theorem ne_and_endsPlain_of_beginsPlain {inFlow : Bool} {c next : Char}
    (h : beginsPlain inFlow c next = true) : c ≠ '#' ∧ endsPlain inFlow c next = false := by
  constructor
  · rintro rfl
    simp [beginsPlain] at h
  · simp only [beginsPlain, Bool.or_eq_true, Bool.not_eq_true', Bool.or_eq_false_iff,
      Bool.and_eq_true, beq_iff_eq] at h
    rcases h with ⟨hs, hm⟩ | ⟨hn, rfl | ⟨hf, rfl | rfl⟩⟩
    · simp only [List.mem_cons, decide_eq_false_iff_not, not_or] at hm
      simp [endsPlain, isFlowMark, hs, hm]
    · simp [endsPlain, isFlowMark, isSpace, isBreakOrEnd, isBreak, endChar]
    · simp [endsPlain, isFlowMark, isSpace, isBreakOrEnd, isBreak, endChar, hf]
    · have hc : isSpace ':' = false := by decide
      simp [endsPlain, hc, hf, hn]

theorem length_lt_of_plainToken {s next : Scan} (he : peek s.rest ≠ endChar)
    (hb : beginsPlain (s.level != 0) (peek s.rest) (peekAt 1 s.rest) = true)
    (h : s.plainToken = some next) : next.rest.length < s.rest.length := by
  obtain ⟨t, ht, rfl⟩ := Option.map_eq_some_iff.mp h
  obtain ⟨hr, hl⟩ := rest_level_of_addCandidate ht
  rw [← hr, ← hl] at hb
  rw [← hr] at he ⊢
  obtain ⟨hc, hp⟩ := ne_and_endsPlain_of_beginsPlain hb
  exact length_plain_lt ⟨t.indent + 1, t.level != 0⟩ hc hp he

theorem length_lt_of_simpleToken {s next : Scan} (he : peek s.rest ≠ endChar)
    (h : s.simpleToken = some next) : next.rest.length < s.rest.length := by
  have one := length_drop_lt he Nat.one_pos
  have three := length_drop_lt (n := 3) he (by decide)
  revert h
  fun_cases simpleToken s <;> intro h
  case case1 hc => exact absurd (eq_of_beq hc) he
  case case2 | case3 =>
    rw [rest_of_documentMark h]
    exact three
  case case4 | case5 =>
    rw [rest_of_openFlow h]
    exact one
  case case6 | case7 =>
    rw [rest_of_closeFlow h]
    exact one
  case case8 =>
    rw [rest_of_flowEntry h]
    exact one
  case case9 | case10 =>
    rw [rest_of_blockMark h]
    exact one
  case case11 =>
    rw [rest_of_value h]
    exact one
  case case12 | case13 => exact length_lt_of_nameToken he h
  case case14 => exact length_lt_of_tagToken he h
  case case15 | case16 => exact length_lt_of_blockToken he h
  case case17 hb => exact length_lt_of_plainToken he hb h
  case case18 => cases h

theorem length_lt_of_token {s next : Scan} (he : peek s.rest ≠ endChar)
    (h : s.token = .ok next) : next.rest.length < s.rest.length := by
  simp only [token] at h
  split at h
  · exact length_lt_of_directiveToken he h
  · split at h
    · exact length_lt_of_quotedToken he h
    · exact length_lt_of_simpleToken he (ScanFault.require_eq_ok h)

theorem token_of_end {s : Scan} (he : peek s.rest = endChar) :
    s.token = ScanFault.require s.finish := by
  simp [token, simpleToken, he, endChar]

/-- The tokens come to an end, since each step but the last takes characters. -/
theorem length_lt_of_step {s next : Scan} (h : s.step = .ok next)
    (hf : next.isFinished = false) : next.rest.length < s.rest.length := by
  unfold step at h
  split at h
  · cases h
  · rename_i t ht
    have hp := length_passBlanks_le s
    rw [← rest_of_dropStale ht, ← rest_unwind (columnOf t.rest)] at hp
    by_cases he : peek (t.unwind (columnOf t.rest)).rest = endChar
    · rw [token_of_end he] at h
      rw [isFinished_of_finish (ScanFault.require_eq_ok h)] at hf
      cases hf
    · exact Nat.lt_of_lt_of_le (length_lt_of_token he h) hp

/-- All tokens from a place on. Where the document breaks off, the fault follows the tokens that can be told
by then. -/
def run (s : Scan) : List Token :=
  match h : s.step with
  | .error fault => s.settled ++ [.broken fault]
  | .ok next =>
    if hf : next.isFinished then next.tokens.reverse
    else
      have : next.rest.length < s.rest.length := length_lt_of_step h (by simpa using hf)
      run next
termination_by s.rest.length

end Scan

/-- The tokens of a document. -/
def tokens (text : String) : List Token :=
  if (Text.symbols text.toList).all isAllowed then
    let all := spotsFrom 0 0 0 (unifyLineEnds text.toList)
    Scan.run { rest := if peek all == byteOrderMark then all.drop 1 else all }
  else [.broken .malformed]

end ApiDocs.Yaml
