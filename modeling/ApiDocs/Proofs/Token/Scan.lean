import ApiDocs.Proofs.Token.Takes

/-!
# The tokens of texts laid end to end

The end of input is delivered last and only there, so a text has the tokens that are `written` in it
and then the end.

* `Token.scan_induction`: going through a text token by token;
* `Token.exists_takes_of_mem_written`: where a token stands in its text;
* `Token.written_append_separator`: a character that is always a token by itself separates the
  tokens in front of it from those behind it;
* `Token.written_shift`: where a text begins is seen in the places of its tokens only.
-/

namespace ApiDocs

open Text

namespace Token

/-- The tokens of `xs`, which begin at `start`, in front of the end of input. -/
def written (start : Nat) (xs : List Symbol) : List Token := (scan start xs).dropLast

/-! ## One token -/

theorem scan_of_isSkipped {start : Nat} {x : Symbol} {xs : List Symbol} (h : isSkipped x = true) :
    scan start (x :: xs) = scan (start + 1) xs := by
  rw [scan, if_pos h]

theorem scan_of_not_isSkipped {start : Nat} {x : Symbol} {xs : List Symbol}
    (h : ¬ isSkipped x = true) :
    scan start (x :: xs) = ⟨(firstLexeme x xs).1, start, x :: (firstLexeme x xs).2⟩ ::
      scan (start + ((firstLexeme x xs).2.length + 1)) (restAfter x xs) := by
  rw [scan, if_neg h]
  rfl

theorem scan_ne_nil (start : Nat) (xs : List Symbol) : scan start xs ≠ [] := by
  fun_induction scan start xs with
  | case1 => exact List.cons_ne_nil _ _
  | case2 _ _ _ _ ih => exact ih
  | case3 => exact List.cons_ne_nil _ _

theorem written_nil (start : Nat) : written start [] = [] := by
  rw [written, scan]
  rfl

theorem written_of_isSkipped {start : Nat} {x : Symbol} {xs : List Symbol}
    (h : isSkipped x = true) : written start (x :: xs) = written (start + 1) xs := by
  rw [written, scan_of_isSkipped h, written]

theorem written_of_not_isSkipped {start : Nat} {x : Symbol} {xs : List Symbol}
    (h : ¬ isSkipped x = true) :
    written start (x :: xs) = ⟨(firstLexeme x xs).1, start, x :: (firstLexeme x xs).2⟩ ::
      written (start + ((firstLexeme x xs).2.length + 1)) (restAfter x xs) := by
  rw [written, scan_of_not_isSkipped h, List.dropLast_cons_of_ne_nil (scan_ne_nil _ _), written]

theorem isPrefix_firstLexeme (x : Symbol) (rest : List Symbol) : (firstLexeme x rest).2 <+: rest :=
  (takes_firstLexeme x rest).isPrefix

theorem length_firstLexeme_le (x : Symbol) (rest : List Symbol) :
    (firstLexeme x rest).2.length ≤ rest.length := (isPrefix_firstLexeme x rest).length_le

theorem length_firstLexeme_add (x : Symbol) (rest : List Symbol) :
    (firstLexeme x rest).2.length + (restAfter x rest).length = rest.length := by
  rw [restAfter, List.length_drop]
  exact Nat.add_sub_cancel' (length_firstLexeme_le x rest)

theorem append_restAfter (x : Symbol) (xs : List Symbol) :
    (firstLexeme x xs).2 ++ restAfter x xs = xs :=
  List.prefix_iff_eq_append.mp (isPrefix_firstLexeme x xs)

/-- Going through a text token by token: what is passed over goes one symbol on, a token as far as
it reaches. -/
@[elab_as_elim]
theorem scan_induction {motive : Nat → List Symbol → Prop} (nil : ∀ start, motive start [])
    (skipped : ∀ start x xs, isSkipped x = true → motive (start + 1) xs → motive start (x :: xs))
    (token : ∀ start x xs, ¬ isSkipped x = true →
      motive (start + ((firstLexeme x xs).2.length + 1)) (restAfter x xs) → motive start (x :: xs))
    (start : Nat) (xs : List Symbol) : motive start xs := by
  fun_induction scan start xs with
  | case1 start => exact nil start
  | case2 start x xs hx ih => exact skipped start x xs hx ih
  | case3 start x xs hx kind more hfirst t ih =>
    refine token start x xs hx ?_
    rw [hfirst]
    exact ih

/-! ## The end of input -/

/-- The end of input stands behind the last symbol, and the tokens written in front of it. -/
theorem scan_eq_written_append (start : Nat) (xs : List Symbol) :
    scan start xs = written start xs ++ [endAt (start + xs.length)] := by
  induction start, xs using scan_induction with
  | nil start => rw [written_nil, scan]; rfl
  | skipped start x xs hx ih =>
    rw [scan_of_isSkipped hx, written_of_isSkipped hx, ih, List.length_cons, Nat.add_assoc,
      Nat.add_comm 1]
  | token start x xs hx ih =>
    have hend : start + (x :: xs).length =
        start + ((firstLexeme x xs).2.length + 1) + (restAfter x xs).length := by
      rw [List.length_cons, ← length_firstLexeme_add x xs]
      omega
    rw [scan_of_not_isSkipped hx, written_of_not_isSkipped hx, ih, hend, List.cons_append]

theorem tokenize_eq (text : String) : tokenize text =
    (tokenize text).dropLast ++ [endAt (symbols text.toList).length] := by
  have hscan := scan_eq_written_append 0 (symbols text.toList)
  rw [Nat.zero_add] at hscan
  exact hscan

/-! ## Where tokens stand -/

theorem mem_written_of_mem_scan {start : Nat} {xs : List Symbol} {t : Token}
    (ht : t ∈ scan start xs) (hend : t.kind ≠ .endOfInput) : t ∈ written start xs := by
  rw [scan_eq_written_append, List.mem_append] at ht
  rcases ht with ht | ht
  · exact ht
  · rw [List.mem_singleton.mp ht] at hend
    exact absurd rfl hend

/-- Where a token stands in its text, and what it takes there. -/
theorem exists_takes_of_mem_written (start : Nat) (xs : List Symbol) : ∀ t ∈ written start xs,
    ∃ front x rest kind more, xs = front ++ x :: rest ∧ isSkipped x = false ∧
      Takes kind x rest more ∧ t = ⟨kind, start + front.length, x :: more⟩ := by
  induction start, xs using scan_induction with
  | nil start => rw [written_nil]; exact nofun
  | skipped start x xs hx ih =>
    rw [written_of_isSkipped hx]
    intro t ht
    obtain ⟨front, y, rest, kind, more, rfl, hy, htakes, rfl⟩ := ih t ht
    refine ⟨x :: front, y, rest, kind, more, rfl, hy, htakes, ?_⟩
    rw [List.length_cons, Nat.add_assoc, Nat.add_comm 1]
  | token start x xs hx ih =>
    rw [written_of_not_isSkipped hx]
    intro u hu
    rcases List.mem_cons.mp hu with rfl | hu
    · exact ⟨[], x, xs, _, _, rfl, eq_false_of_ne_true hx, takes_firstLexeme x xs, rfl⟩
    · obtain ⟨front, y, rest, kind, more, hrest, hy, htakes, rfl⟩ := ih u hu
      refine ⟨x :: ((firstLexeme x xs).2 ++ front), y, rest, kind, more, ?_, hy, htakes, ?_⟩
      · rw [List.cons_append, List.append_assoc, ← hrest, append_restAfter]
      · rw [List.length_cons, List.length_append]
        congr 1
        omega

/-- Tokens start within the text. -/
theorem start_le_of_mem_scan (start : Nat) (xs : List Symbol) :
    ∀ t ∈ scan start xs, t.start ≤ start + xs.length := by
  intro t ht
  rw [scan_eq_written_append, List.mem_append, List.mem_singleton] at ht
  rcases ht with ht | rfl
  · obtain ⟨front, x, rest, kind, more, rfl, -, -, rfl⟩ := exists_takes_of_mem_written start xs t ht
    rw [List.length_append]
    exact Nat.add_le_add_left (Nat.le_add_right _ _) start
  · exact Nat.le_refl _

theorem kind_ne_endOfInput_of_mem_written (start : Nat) (xs : List Symbol) :
    ∀ t ∈ written start xs, t.kind ≠ .endOfInput := by
  intro t ht
  obtain ⟨front, x, rest, kind, more, -, -, htakes, rfl⟩ := exists_takes_of_mem_written start xs t ht
  exact htakes.kind_ne_endOfInput

/-! ## Texts laid end to end -/

theorem firstLexeme_of_endsToken {c : Char} (hc : EndsToken c) (ys : List Symbol) :
    firstLexeme (.char c) ys = ((punctuation? c).getD .unknown, []) := by
  obtain ⟨hdigit, hname, hdoubling⟩ := hc
  have hstart : ¬ isNameStart c = true := by
    intro hstart
    rw [isNameRest_of_isNameStart hstart] at hname
    cases hname
  rw [firstLexeme, lexemeAt, hdoubling, hdigit]
  cases punctuation? c with
  | some kind => rfl
  | none => exact if_neg hstart

theorem takeWhile_append_of_head {p : Symbol → Bool} {y : Symbol} (hy : p y = false)
    (xs ys : List Symbol) : (xs ++ y :: ys).takeWhile p = xs.takeWhile p := by
  induction xs with
  | nil => exact List.takeWhile_cons_of_neg (by rw [hy]; exact nofun)
  | cons x xs ih => rw [List.cons_append, List.takeWhile_cons, List.takeWhile_cons, ih]

theorem firstLexeme_append {c : Char} (hc : EndsToken c) (x : Symbol) (xs ys : List Symbol) :
    firstLexeme x (xs ++ .char c :: ys) = firstLexeme x xs := by
  obtain ⟨hdigit, hname, hdoubling⟩ := hc
  cases x with
  | half place => rfl
  | char d =>
    rw [firstLexeme, firstLexeme, lexemeAt, lexemeAt]
    have hhead : ∀ {single double}, doubling? d = some (single, double) →
        ((xs ++ .char c :: ys).head? == some (.char d)) = (xs.head? == some (.char d)) := by
      intro single double hd
      cases xs with
      | nil =>
        have hne : ¬ c = d := by
          rintro rfl
          rw [hdoubling] at hd
          cases hd
        simpa using hne
      | cons => rfl
    split
    · rfl
    · split
      · next hd => rw [hhead hd]
      · have hdigit : (Symbol.char c).passes isDigit = false := hdigit
        have hname : (Symbol.char c).passes isNameRest = false := hname
        rw [takeWhile_append_of_head hdigit, takeWhile_append_of_head hname]

/-- What is written goes on with a character that ends a token as it begins with that character. -/
theorem written_append_of_endsToken {c : Char} (hc : EndsToken c) (start : Nat)
    (xs ys : List Symbol) : written start (xs ++ .char c :: ys) =
      written start xs ++ written (start + xs.length) (.char c :: ys) := by
  induction start, xs using scan_induction with
  | nil start => rw [List.nil_append, written_nil, List.nil_append, List.length_nil, Nat.add_zero]
  | skipped start x xs hx ih =>
    rw [List.cons_append, written_of_isSkipped hx, written_of_isSkipped hx, ih, List.length_cons,
      Nat.add_assoc start 1, Nat.add_comm 1]
  | token start x xs hx ih =>
    have hrest : restAfter x (xs ++ .char c :: ys) = restAfter x xs ++ .char c :: ys := by
      rw [restAfter, firstLexeme_append hc,
        List.drop_append_of_le_length (length_firstLexeme_le x xs), restAfter]
    have hstop : start + ((firstLexeme x xs).2.length + 1) + (restAfter x xs).length =
        start + (xs.length + 1) := by
      rw [← length_firstLexeme_add x xs]
      omega
    rw [hstop] at ih
    rw [List.cons_append, written_of_not_isSkipped hx, written_of_not_isSkipped hx, hrest,
      firstLexeme_append hc, ih, List.length_cons, List.cons_append]

/-- A character that is always a token by itself separates what is written on its two sides. -/
theorem written_append_separator {c : Char} (hc : Separates c) (start : Nat) (xs ys : List Symbol) :
    written start (xs ++ .char c :: ys) = written start xs ++
      ⟨(punctuation? c).getD .unknown, start + xs.length, [.char c]⟩ ::
        written (start + xs.length + 1) ys := by
  have hlexeme := firstLexeme_of_endsToken hc.1 ys
  rw [written_append_of_endsToken hc.1, written_of_not_isSkipped (by rw [hc.2]; exact nofun), hlexeme,
    restAfter, hlexeme]
  rfl

/-- What is passed over at the end of a text adds no token. -/
theorem written_append_of_isSkipped {xs ys : List Symbol} (start : Nat)
    (h : ∀ y ∈ ys, isSkipped y = true) : written start (xs ++ ys) = written start xs := by
  have hnone : ∀ (start : Nat) (zs : List Symbol), (∀ z ∈ zs, isSkipped z = true) →
      written start zs = [] := by
    intro start zs hzs
    induction zs generalizing start with
    | nil => exact written_nil start
    | cons z zs ih =>
      rw [List.forall_mem_cons] at hzs
      rw [written_of_isSkipped hzs.1]
      exact ih (start + 1) hzs.2
  cases ys with
  | nil => rw [List.append_nil]
  | cons y ys =>
    cases y with
    | half place => cases h _ List.mem_cons_self
    | char c =>
      rw [written_append_of_endsToken (endsToken_of_isSkipped (h _ List.mem_cons_self)), hnone _ _ h,
        List.append_nil]

theorem written_append_punctuation {c : Char} {kind : TokenKind} (hc : punctuation? c = some kind)
    (start : Nat) (xs ys : List Symbol) :
    written start (xs ++ .char c :: ys) = written start xs ++
      ⟨kind, start + xs.length, [.char c]⟩ :: written (start + xs.length + 1) ys := by
  rw [written_append_separator (separates_of_mem_punctuation c (mem_punctuation hc)), hc]
  rfl

/-! ## Places -/

/-- The token at another place. -/
def shift (d : Nat) (t : Token) : Token := { t with start := t.start + d }

@[simp] theorem kind_shift (d : Nat) (t : Token) : (t.shift d).kind = t.kind := rfl

@[simp] theorem lexeme_shift (d : Nat) (t : Token) : (t.shift d).lexeme = t.lexeme := rfl

@[simp] theorem text_shift (d : Nat) (t : Token) : (t.shift d).text = t.text := rfl

/-- Where a text begins is seen in the places of its tokens only. -/
theorem written_shift (start d : Nat) (xs : List Symbol) :
    written (start + d) xs = (written start xs).map (shift d) := by
  induction start, xs using scan_induction with
  | nil start => rw [written_nil, written_nil]; rfl
  | skipped start x xs hx ih =>
    rw [written_of_isSkipped hx, written_of_isSkipped hx, ← ih, Nat.add_right_comm]
  | token start x xs hx ih =>
    rw [written_of_not_isSkipped hx, written_of_not_isSkipped hx, List.map_cons, ← ih,
      Nat.add_right_comm]
    rfl

end Token

end ApiDocs
