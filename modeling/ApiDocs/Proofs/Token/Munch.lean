import ApiDocs.Proofs.Token.Spelling

/-!
# Nothing is lost

The tokens of a text stand in it one behind the other, each as long as it can be, and what stands
between them are the control characters.

* `Token.pairwise_written`, `Token.isCovered_iff`: tokens do not overlap, and a symbol is in one of
  them unless it is passed over;
* `Token.isMaximal_of_name`, `Token.isMaximal_of_number`: names and numbers end where they have to;
* `Token.IsLexing`: what the tokens of a text have to be, and `Token.tokenize_isLexing`: they are.
-/

namespace ApiDocs

open Text

namespace Token

theorem isSkipped_eq_decide (x : Symbol) : isSkipped x = decide (x.number < 0x20) := by
  cases x with
  | char c => rfl
  | half place =>
    refine (decide_eq_false ?_).symm
    show ¬ 0xd800 + place.val < 0x20
    omega

/-! ## Where tokens stand -/

theorem start_le_of_mem_written {start : Nat} {xs : List Symbol} {t : Token}
    (ht : t ∈ written start xs) : start ≤ t.start := by
  obtain ⟨front, x, rest, kind, more, -, -, -, rfl⟩ := exists_takes_of_mem_written start xs t ht
  exact Nat.le_add_right _ _

/-- Tokens come in order and do not overlap. -/
theorem pairwise_written (start : Nat) (xs : List Symbol) :
    (written start xs).Pairwise fun t u => t.stop ≤ u.start := by
  induction start, xs using scan_induction with
  | nil start =>
    rw [written_nil]
    exact .nil
  | skipped start x xs hx ih =>
    rw [written_of_isSkipped hx]
    exact ih
  | token start x xs hx ih =>
    rw [written_of_not_isSkipped hx]
    exact List.pairwise_cons.mpr ⟨fun u hu => start_le_of_mem_written hu, ih⟩

/-- A symbol is in a token, unless it is passed over. -/
theorem isCovered_iff (start : Nat) (xs : List Symbol) : ∀ k y, xs[k]? = some y →
    ((∃ t ∈ written start xs, t.start ≤ start + k ∧ start + k < t.stop) ↔ isSkipped y = false) := by
  induction start, xs using scan_induction with
  | nil start => exact fun k y h => nomatch h
  | skipped start x xs hx ih =>
    rw [written_of_isSkipped hx]
    intro k y hy
    cases k with
    | zero =>
      cases hy
      rw [hx]
      refine ⟨?_, nofun⟩
      rintro ⟨t, ht, hstart, -⟩
      have := start_le_of_mem_written ht
      omega
    | succ k =>
      rw [← ih k y hy, Nat.add_assoc start 1, Nat.add_comm 1]
  | token start x xs hx ih =>
    have hx := eq_false_of_ne_true hx
    rw [written_of_not_isSkipped (by rw [hx]; exact nofun)]
    intro k y hy
    rw [List.exists_mem_cons_iff]
    by_cases hk : k < (firstLexeme x xs).2.length + 1
    · -- The symbol is in the first token.
      have htaken : y ∈ x :: (firstLexeme x xs).2 := by
        rw [← append_restAfter x xs, ← List.cons_append, List.getElem?_append_left hk] at hy
        exact List.mem_of_getElem? hy
      have hcovered : isSkipped y = false := by
        rcases List.mem_cons.mp htaken with rfl | hmem
        · exact hx
        · exact (takes_firstLexeme x xs).isSkipped_eq_false hx y hmem
      exact ⟨fun _ => hcovered, fun _ => .inl ⟨Nat.le_add_right _ _, Nat.add_lt_add_left hk start⟩⟩
    · -- It is behind the first token, if in any.
      have hrest : (restAfter x xs)[k - ((firstLexeme x xs).2.length + 1)]? = some y := by
        rw [← append_restAfter x xs, ← List.cons_append,
          List.getElem?_append_right (Nat.le_of_not_lt hk)] at hy
        exact hy
      have hplace : start + ((firstLexeme x xs).2.length + 1) +
          (k - ((firstLexeme x xs).2.length + 1)) = start + k := by omega
      rw [← ih _ y hrest, hplace]
      refine or_iff_right ?_
      rintro ⟨-, hlt⟩
      exact hk (Nat.lt_of_add_lt_add_left hlt)

/-! ## As long as they can be -/

/-- All symbols of a token pass a test, and the one behind it does not. -/
def IsMaximal (p : Char → Bool) (xs : List Symbol) (t : Token) : Prop :=
  (∀ x ∈ t.lexeme, x.passes p = true) ∧ ∀ x, xs[t.stop]? = some x → x.passes p = false

theorem eq_false_of_getElem?_takeWhile {p : Symbol → Bool} {xs : List Symbol} {y : Symbol}
    (h : xs[(xs.takeWhile p).length]? = some y) : p y = false := by
  induction xs with
  | nil => cases h
  | cons x xs ih =>
    by_cases hx : p x = true
    · rw [List.takeWhile_cons_of_pos hx] at h
      exact ih h
    · rw [List.takeWhile_cons_of_neg hx] at h
      cases h
      exact eq_false_of_ne_true hx

/-- A run that is taken behind its first symbol is maximal. -/
theorem isMaximal_of_takeWhile {p : Char → Bool} {front rest : List Symbol} {x : Symbol}
    (hx : x.passes p = true) (kind : TokenKind) : IsMaximal p (front ++ x :: rest)
      ⟨kind, front.length, x :: rest.takeWhile (·.passes p)⟩ := by
  refine ⟨List.forall_mem_cons.mpr ⟨hx, fun y hy => List.mem_takeWhile_imp hy⟩, fun y hy => ?_⟩
  have hbehind : rest[(rest.takeWhile (·.passes p)).length]? = some y := by
    rw [stop, Token.length, List.getElem?_append_right (Nat.le_add_right _ _),
      Nat.add_sub_cancel_left] at hy
    exact hy
  exact eq_false_of_getElem?_takeWhile hbehind

variable {xs : List Symbol} {t u : Token}

theorem passes_isNameRest {x : Symbol} (h : x.passes isNameStart = true) :
    x.passes isNameRest = true := by
  cases x with
  | char c => exact isNameRest_of_isNameStart h
  | half place => cases h

theorem isMaximal_of_name (ht : t ∈ written 0 xs) (hk : t.kind = .name) :
    (∃ x, t.lexeme.head? = some x ∧ x.passes isNameStart = true) ∧ IsMaximal isNameRest xs t := by
  obtain ⟨front, x, rest, kind, more, rfl, -, htakes, rfl⟩ := exists_takes_of_mem_written 0 xs t ht
  cases hk
  obtain ⟨hstart, rfl⟩ := htakes.of_name
  rw [Nat.zero_add]
  exact ⟨⟨x, rfl, hstart⟩, isMaximal_of_takeWhile (passes_isNameRest hstart) .name⟩

theorem isMaximal_of_number (ht : t ∈ written 0 xs) (hk : t.kind = .number) :
    IsMaximal isDigit xs t := by
  obtain ⟨front, x, rest, kind, more, rfl, -, htakes, rfl⟩ := exists_takes_of_mem_written 0 xs t ht
  cases hk
  obtain ⟨hdigit, rfl⟩ := htakes.of_number
  rw [Nat.zero_add]
  exact isMaximal_of_takeWhile hdigit .number

/-- What a token covers stands in the text. -/
theorem take_length_drop_start (ht : t ∈ written 0 xs) :
    (xs.drop t.start).take t.length = t.lexeme := by
  obtain ⟨front, x, rest, kind, more, rfl, -, htakes, rfl⟩ := exists_takes_of_mem_written 0 xs t ht
  rw [Nat.zero_add, List.drop_left, Token.length, List.length_cons, List.take_succ_cons,
    ← List.prefix_iff_eq_take.mp htakes.isPrefix]

theorem getElem?_start (ht : t ∈ written 0 xs) : xs[t.start]? = t.lexeme.head? := by
  obtain ⟨front, x, rest, kind, more, rfl, -, -, rfl⟩ := exists_takes_of_mem_written 0 xs t ht
  rw [Nat.zero_add, List.getElem?_append_right (Nat.le_refl _), Nat.sub_self]
  rfl

theorem mem_lexeme_of_covers (ht : t ∈ written 0 xs) {k : Nat} {y : Symbol} (hy : xs[k]? = some y)
    (hstart : t.start ≤ k) (hstop : k < t.stop) : y ∈ t.lexeme := by
  rw [← take_length_drop_start ht]
  refine List.mem_of_getElem? (i := k - t.start) ?_
  have hlt : k - t.start < t.length := by
    rw [stop] at hstop
    omega
  rw [List.getElem?_take_of_lt hlt, List.getElem?_drop, Nat.add_sub_cancel' hstart, hy]

theorem stop_le_of_start_lt (ht : t ∈ written 0 xs) (hu : u ∈ written 0 xs)
    (hlt : u.start < t.start) : u.stop ≤ t.start := by
  have hpair := pairwise_written 0 xs
  obtain ⟨front, back, hsplit⟩ := List.append_of_mem ht
  rw [hsplit] at hpair hu
  obtain ⟨-, hback, hcross⟩ := List.pairwise_append.mp hpair
  rcases List.mem_append.mp hu with hu | hu
  · exact hcross u hu t List.mem_cons_self
  · rcases List.mem_cons.mp hu with rfl | hu
    · exact absurd hlt (Nat.lt_irrefl _)
    · have hle := (List.pairwise_cons.mp hback).1 u hu
      rw [stop] at hle
      omega

/-- A token that covers a digit is a number or a name. -/
theorem kind_of_digit (ht : t ∈ written 0 xs) {y : Symbol} (hy : y ∈ t.lexeme)
    (hdigit : y.passes isDigit = true) : t.kind = .number ∨ t.kind = .name := by
  obtain ⟨front, x, rest, kind, more, rfl, -, htakes, rfl⟩ := exists_takes_of_mem_written 0 xs t ht
  have hhead : (∀ z ∈ more, z = x) → x.passes isDigit = true := by
    intro hmore
    rcases List.mem_cons.mp hy with rfl | hmem
    · exact hdigit
    · rwa [← hmore y hmem]
  rcases htakes.form with ⟨-, ⟨c, hc, rfl⟩, hmore⟩ | ⟨hk, -⟩ | ⟨hk, -⟩ | ⟨-, hstray, rfl⟩
  · have hc' : isDigit c = true := hhead hmore
    rw [(eq_false_of_mem_signs c hc).2] at hc'
    cases hc'
  · exact .inl hk
  · exact .inr hk
  · have hx := hhead nofun
    rw [hstray.2.1] at hx
    cases hx

/-- No digit stands in front of a number. -/
theorem passes_isDigit_front (ht : t ∈ written 0 xs) (hk : t.kind = .number) {k : Nat} {y : Symbol}
    (hplace : k + 1 = t.start) (hy : xs[k]? = some y) : y.passes isDigit = false := by
  rw [← Bool.not_eq_true]
  intro hdigit
  -- The digit is in a token that ends where the number begins, and would go on with it.
  have hshown : isSkipped y = false := isSkipped_eq_false_of_passes (fun c hc => hc.1) hdigit
  obtain ⟨u, hu, hstart, hstop⟩ := (isCovered_iff 0 xs k y hy).mpr hshown
  rw [Nat.zero_add] at hstart hstop
  have hle := stop_le_of_start_lt ht hu (by omega)
  have hend : u.stop = t.start := by omega
  obtain ⟨x, rest, hlexeme⟩ : ∃ x rest, t.lexeme = x :: rest := by
    obtain ⟨front, x, rest, kind, more, -, -, -, rfl⟩ := exists_takes_of_mem_written 0 xs t ht
    exact ⟨x, more, rfl⟩
  have hx : xs[u.stop]? = some x := by
    rw [hend, getElem?_start ht, hlexeme]
    rfl
  have hx' : x.passes isDigit = true := by
    refine (isMaximal_of_number ht hk).1 x ?_
    rw [hlexeme]
    exact List.mem_cons_self
  rcases kind_of_digit hu (mem_lexeme_of_covers hu hy hstart hstop) hdigit with hku | hku
  · rw [(isMaximal_of_number hu hku).2 x hx] at hx'
    cases hx'
  · have hrest := (isMaximal_of_name hu hku).2.2 x hx
    cases x with
    | half place => cases hx'
    | char c =>
      have hc : isNameRest c = true := isNameRest_of_isDigit hx'
      have hc' : isNameRest c = false := hrest
      rw [hc] at hc'
      cases hc'

/-! ## All of it -/

/-- The marks that may be doubled, with their single and doubled kinds. -/
def marks : List (Char × TokenKind × TokenKind) :=
  [('#', .sharp, .doubleSharp), (graveAccent, .backtick, .doubleBacktick)]

/-- What the tokens in front of the end of a text have to be. -/
structure IsLexing (xs : List Symbol) (ts : List Token) : Prop where
  kind_ne : ∀ t ∈ ts, t.kind ≠ .endOfInput
  length_pos : ∀ t ∈ ts, 0 < t.length
  stands : ∀ t ∈ ts, (xs.drop t.start).take t.length = t.lexeme
  ordered : ts.Pairwise fun t u => t.stop ≤ u.start
  /-- Control characters, and nothing else, are in no token. -/
  covered_iff : ∀ k x, xs[k]? = some x →
    ((∃ t ∈ ts, t.start ≤ k ∧ k < t.stop) ↔ 0x20 ≤ x.number)
  texts : String.join (ts.map (·.text)) = ofSymbols (xs.filter fun x => 0x20 ≤ x.number)
  name : ∀ t ∈ ts, t.kind = .name →
    (∃ x, t.lexeme.head? = some x ∧ x.passes isNameStart = true) ∧ IsMaximal isNameRest xs t
  /-- A number is a maximal run of digits, on both sides. -/
  number : ∀ t ∈ ts, t.kind = .number → IsMaximal isDigit xs t ∧
    ∀ k x, k + 1 = t.start → xs[k]? = some x → x.passes isDigit = false
  doubled : ∀ t ∈ ts, ∀ c single double, (c, single, double) ∈ marks →
    t.lexeme.head? = some (.char c) →
    if xs[t.start + 1]? = some (.char c) then t.kind = double ∧ t.lexeme = [.char c, .char c]
    else t.kind = single ∧ t.lexeme = [.char c]
  /-- What is not known is one symbol, and no token of another kind begins with it in any text. -/
  unknown : ∀ t ∈ ts, t.kind = .unknown → ∃ x, t.lexeme = [x] ∧ IsStray x ∧
    ∀ text, ∀ u ∈ tokenize text, u.lexeme.head? = some x → u.kind = .unknown
  spelled : ∀ t ∈ ts, t.kind ≠ .unknown → Covers t.kind t.text.toList

theorem join_map_text (ts : List Token) :
    String.join (ts.map (·.text)) = ofSymbols (ts.flatMap (·.lexeme)) := by
  induction ts with
  | nil => rfl
  | cons t ts ih =>
    rw [List.map_cons, String.join_cons, ih, List.flatMap_cons, text, ofSymbols, ofSymbols,
      ofSymbols, ← String.ofList_append, List.flatMap_append]

theorem isSkipped_eq_false_iff {x : Symbol} : isSkipped x = false ↔ 0x20 ≤ x.number := by
  rw [isSkipped_eq_decide, decide_eq_false_iff_not, Nat.not_lt]

theorem doubled_of_mem_written (ht : t ∈ written 0 xs) {c : Char} {single double : TokenKind}
    (hc : doubling? c = some (single, double)) (hhead : t.lexeme.head? = some (.char c)) :
    if xs[t.start + 1]? = some (.char c) then t.kind = double ∧ t.lexeme = [.char c, .char c]
    else t.kind = single ∧ t.lexeme = [.char c] := by
  obtain ⟨front, x, rest, kind, more, rfl, -, htakes, rfl⟩ := exists_takes_of_mem_written 0 xs t ht
  cases hhead
  have hnext : (front ++ .char c :: rest)[front.length + 1]? = rest.head? := by
    rw [List.getElem?_append_right (Nat.le_add_right _ _), Nat.add_sub_cancel_left,
      List.getElem?_cons_succ, List.head?_eq_getElem?]
  have htakes := htakes.of_doubling hc
  rw [Nat.zero_add, hnext]
  split
  · next hsecond =>
    rw [if_pos hsecond] at htakes
    exact ⟨htakes.1, congrArg _ htakes.2⟩
  · next hsecond =>
    rw [if_neg hsecond] at htakes
    exact ⟨htakes.1, congrArg _ htakes.2⟩

theorem kind_of_head_isStray {x : Symbol} (hx : IsStray x) {text : String} (ht : t ∈ tokenize text)
    (hhead : t.lexeme.head? = some x) : t.kind = .unknown := by
  rw [tokenize_eq, List.mem_append] at ht
  rcases ht with ht | ht
  · obtain ⟨front, y, rest, kind, more, -, -, htakes, rfl⟩ := exists_takes_of_mem_written 0 _ t ht
    cases hhead
    exact htakes.kind_of_isStray hx
  · rw [List.mem_singleton.mp ht] at hhead
    cases hhead

theorem unknown_of_mem_written (ht : t ∈ written 0 xs) (hk : t.kind = .unknown) :
    ∃ x, t.lexeme = [x] ∧ IsStray x := by
  obtain ⟨front, x, rest, kind, more, -, -, htakes, rfl⟩ := exists_takes_of_mem_written 0 xs t ht
  cases hk
  obtain ⟨hstray, rfl⟩ := htakes.of_unknown
  exact ⟨x, rfl, hstray⟩

/-- The tokens of a text are as they have to be, and the end of input stands behind them, behind the
last symbol. -/
theorem tokenize_isLexing (text : String) : ∃ ts,
    tokenize text = ts ++ [endAt (symbols text.toList).length] ∧
      IsLexing (symbols text.toList) ts := by
  refine ⟨written 0 (symbols text.toList), tokenize_eq text, ?_⟩
  constructor
  case kind_ne => exact kind_ne_endOfInput_of_mem_written 0 _
  case length_pos =>
    intro t ht
    obtain ⟨front, x, rest, kind, more, -, -, -, rfl⟩ := exists_takes_of_mem_written 0 _ t ht
    exact Nat.succ_pos _
  case stands => exact fun t ht => take_length_drop_start ht
  case ordered => exact pairwise_written 0 _
  case covered_iff =>
    intro k x hx
    have hcovered := isCovered_iff 0 _ k x hx
    rw [Nat.zero_add, isSkipped_eq_false_iff] at hcovered
    exact hcovered
  case texts =>
    rw [join_map_text, flatMap_lexeme_written]
    refine congrArg _ (List.filter_congr fun x _ => ?_)
    rw [isSkipped_eq_decide, ← decide_not, decide_eq_decide, Nat.not_lt]
  case name => exact fun t ht => isMaximal_of_name ht
  case number =>
    exact fun t ht hk => ⟨isMaximal_of_number ht hk, fun k x => passes_isDigit_front ht hk⟩
  case doubled =>
    intro t ht c single double hmark
    refine doubled_of_mem_written ht ?_
    rcases List.mem_cons.mp hmark with heq | hmark
    · cases heq
      rfl
    · cases List.mem_singleton.mp hmark
      rfl
  case unknown =>
    intro t ht hk
    obtain ⟨x, hlexeme, hstray⟩ := unknown_of_mem_written ht hk
    exact ⟨x, hlexeme, hstray, fun text u => kind_of_head_isStray hstray⟩
  case spelled =>
    intro t ht hknown
    have hend := kind_ne_endOfInput_of_mem_written 0 _ t ht
    exact (covers_of_mem_scan (List.dropLast_subset _ ht) hend hknown).1

end Token

end ApiDocs
