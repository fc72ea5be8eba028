import ApiDocs.Proofs.Grammar.Complete
import ApiDocs.Proofs.Grammar.Language
import ApiDocs.Proofs.Grammar.Sound

/-!
# Reading with one token ahead

A production that looks one token ahead has, when it ends, read the one sentence that goes with the
tokens up to the one ahead, and when it fails, no sentence goes with them: what it has read begins a
sentence, and the token ahead does not go on with it.  Both are said of a production and of the tokens
it is given, and both pass from the parts of a production to the whole.

* `Grammar.ReadsTo`, `Grammar.ReadsTo.append`, `Grammar.ReadsTo.or`: what is read;
* `Grammar.StopsWith`, `Grammar.StopsWith.append_left`, `Grammar.ReadsTo.stops`,
  `Grammar.StopsWith.or`: where reading stops;
* `Grammar.Decides`, `Grammar.Decides.bind`, `Grammar.Decides.or`, `Grammar.Decides.followed`: what a
  production comes to, from its parts;
* `Grammar.leaves`: what a production of the parser leaves.
-/

namespace ApiDocs.Grammar

variable {goesOn goesOn' kinds : List TokenKind} {A B L : Language Token}
variable {ts us mid left rest : List Token} {t : Token} {e : ParseFault}

/-! ## What stands ahead -/

theorem ahead_prefix_append (us left : List Token) : [ahead (us ++ left)] <+: us ++ [ahead left] := by
  cases us with
  | nil => exact List.prefix_rfl
  | cons u us => exact ⟨us ++ [ahead left], rfl⟩

/-- Every sentence begins with a token of some kinds. -/
def Begins (kinds : List TokenKind) (L : Language Token) : Prop :=
  ∀ us ∈ L, ∃ t vs, us = t :: vs ∧ t.kind ∈ kinds

theorem begins_oneOf (kinds : List TokenKind) : Begins kinds (oneOf kinds) := by
  rintro _ ⟨t, ht, rfl⟩
  exact ⟨t, [], rfl, ht⟩

theorem Begins.mul (h : Begins kinds A) (B : Language Token) : Begins kinds (A * B) := by
  intro us hus
  obtain ⟨vs, hvs, ws, -, rfl⟩ := Language.mem_mul.mp hus
  obtain ⟨t, vs, rfl, ht⟩ := h vs hvs
  exact ⟨t, vs ++ ws, rfl, ht⟩

theorem Begins.add (hA : Begins kinds A) (hB : Begins kinds B) : Begins kinds (A + B) := by
  intro us hus
  rcases (Language.mem_add _ _ us).mp hus with hus | hus
  · exact hA us hus
  · exact hB us hus

theorem Begins.mono {kinds' : List TokenKind} (h : Begins kinds L) (hsub : kinds ⊆ kinds') :
    Begins kinds' L := by
  intro us hus
  obtain ⟨t, vs, rfl, ht⟩ := h us hus
  exact ⟨t, vs, rfl, hsub ht⟩

/-- What does not go on behind a sentence of `L` does not go on before it with the other kinds. -/
def Closes (goesOn : List TokenKind) (L : Language Token) (goesOn' : List TokenKind) : Prop :=
  ∀ us ∈ L, ∀ rest, NotNext goesOn' rest → NotNext goesOn (us ++ rest)

theorem closes_nil (L : Language Token) (goesOn' : List TokenKind) : Closes [] L goesOn' :=
  fun _ _ _ _ _ _ => List.not_mem_nil

theorem Begins.closes (h : Begins kinds L) (hkinds : ∀ k ∈ kinds, k ∉ goesOn) :
    Closes goesOn L goesOn' := by
  intro us hus rest _
  obtain ⟨t, vs, rfl, ht⟩ := h us hus
  exact notNext_cons.mpr (hkinds t.kind ht)

/-- What may be left out has to begin with a kind that does not go on. -/
theorem Begins.closes_one_add (h : Begins kinds L) (hkinds : ∀ k ∈ kinds, k ∉ goesOn)
    (hsub : goesOn ⊆ goesOn') : Closes goesOn (1 + L) goesOn' := by
  intro us hus rest hrest
  rcases mem_one_add.mp hus with rfl | hus
  · exact hrest.mono goesOn hsub
  · exact h.closes hkinds us hus rest hrest

/-- No sentence, with what may stand behind it, goes on with a token behind what is read. -/
def Blocked (goesOn : List TokenKind) (L : Language Token) (used : List Token) (t : Token) : Prop :=
  ∀ us ∈ L, ∀ rest, NotNext goesOn rest → ¬ used ++ [t] <+: us ++ rest

theorem Begins.blocked (h : Begins kinds L) (ht : t.kind ∉ kinds) : Blocked goesOn L [] t := by
  intro us hus rest _ hbegins
  obtain ⟨u, vs, rfl, hu⟩ := h us hus
  rw [List.nil_append, List.cons_append, List.cons_prefix_cons] at hbegins
  rw [hbegins.1] at ht
  exact ht hu

theorem blocked_one (ht : t.kind ∈ goesOn) : Blocked goesOn 1 [] t := by
  intro us hus rest hrest hbegins
  rw [(Language.mem_one us).mp hus] at hbegins
  obtain ⟨more, rfl⟩ := hbegins
  exact notNext_cons.mp hrest ht

theorem Blocked.append_left (h : Blocked goesOn A us t) (hclose : Closes goesOn B goesOn') :
    Blocked goesOn' (A * B) us t := by
  intro vs hvs rest hrest hbegins
  obtain ⟨ws, hws, ws', hws', rfl⟩ := Language.mem_mul.mp hvs
  rw [List.append_assoc] at hbegins
  exact h ws hws (ws' ++ rest) (hclose ws' hws' rest hrest) hbegins

theorem Blocked.mono (h : Blocked goesOn L us t) (hsub : goesOn ⊆ goesOn') :
    Blocked goesOn' L us t := by
  intro vs hvs rest hrest
  exact h vs hvs rest (hrest.mono goesOn hsub)

/-! ## Numbers -/

/-- A check on the number behind a mark. -/
abbrev Check := Mark → Token → Except ParseFault Unit

/-- A token of the kind stands for itself: it is no mark, and not the end of the input. -/
def IsPlain (kind : TokenKind) : Prop := kind.mark? = none ∧ kind ≠ .endOfInput

instance (kind : TokenKind) : Decidable (IsPlain kind) := inferInstanceAs (Decidable (_ ∧ _))

/-- Tokens in which a number that passes the check stands behind every mark, and which do not go to the
end of the input. -/
inductive Checked (check : Check) : List Token → Prop
  | nil : Checked check []
  | plain {t : Token} {ts : List Token} : IsPlain t.kind → Checked check ts → Checked check (t :: ts)
  | number {m n : Token} {mark : Mark} {ts : List Token} : m.kind.mark? = some mark →
      n.kind = .number → check mark n = .ok () → Checked check ts → Checked check (m :: n :: ts)

/-- Tokens that are checked, or end with a mark behind which no number stands. -/
inductive Begun (check : Check) (t : Token) : List Token → Prop
  | checked {us : List Token} : Checked check us → Begun check t us
  | mark {us : List Token} {m : Token} {mark : Mark} : Checked check us → m.kind.mark? = some mark →
      t.kind ≠ .number → Begun check t (us ++ [m])

variable {check : Check}

theorem Checked.append (h : Checked check us) (h' : Checked check ts) : Checked check (us ++ ts) := by
  induction h with
  | nil => exact h'
  | plain hplain _ ih => exact .plain hplain ih
  | number hm hn hcheck _ ih => exact .number hm hn hcheck ih

theorem Checked.mono {check' : Check} (h : Checked check us)
    (hcheck : ∀ mark n, check mark n = .ok () → check' mark n = .ok ()) : Checked check' us := by
  induction h with
  | nil => exact .nil
  | plain hplain _ ih => exact .plain hplain ih
  | number hm hn hok _ ih => exact .number hm hn (hcheck _ _ hok) ih

theorem Begun.mono {check' : Check} (h : Begun check t us)
    (hcheck : ∀ mark n, check mark n = .ok () → check' mark n = .ok ()) : Begun check' t us := by
  cases h with
  | checked hus => exact .checked (hus.mono hcheck)
  | mark hus hm ht => exact .mark (hus.mono hcheck) hm ht

theorem Begun.append (h : Checked check us) (h' : Begun check t ts) : Begun check t (us ++ ts) := by
  cases h' with
  | checked hts => exact .checked (h.append hts)
  | mark hts hm ht =>
    rw [← List.append_assoc]
    exact .mark (h.append hts) hm ht

theorem Checked.ne_endOfInput (h : Checked check us) : ∀ t ∈ us, t.kind ≠ .endOfInput := by
  induction h with
  | nil => exact fun _ ht => absurd ht List.not_mem_nil
  | plain hplain _ ih => exact List.forall_mem_cons.mpr ⟨hplain.2, ih⟩
  | number hm hn _ _ ih =>
    refine List.forall_mem_cons.mpr ⟨?_, List.forall_mem_cons.mpr ⟨?_, ih⟩⟩
    · intro hend
      rw [hend] at hm
      cases hm
    · rw [hn]
      decide

/-- Every number behind a mark passes the check. -/
theorem Checked.check_eq_ok {front back : List Token} {m n : Token} {mark : Mark}
    (h : Checked check us) (hus : us = front ++ m :: n :: back) (hm : m.kind.mark? = some mark)
    (hn : n.kind = .number) : check mark n = .ok () := by
  induction h generalizing front with
  | nil => simp at hus
  | plain hplain _ ih =>
    cases front with
    | nil =>
      obtain ⟨rfl, -⟩ := List.cons.inj hus
      rw [hplain.1] at hm
      cases hm
    | cons f front => exact ih (List.cons.inj hus).2
  | number hm' hn' hcheck _ ih =>
    rcases front with - | ⟨f, - | ⟨f', front⟩⟩
    · obtain ⟨rfl, htail⟩ := List.cons.inj hus
      obtain ⟨rfl, -⟩ := List.cons.inj htail
      rw [hm] at hm'
      cases hm'
      exact hcheck
    · obtain ⟨-, htail⟩ := List.cons.inj hus
      obtain ⟨rfl, -⟩ := List.cons.inj htail
      rw [hn'] at hm
      cases hm
    · obtain ⟨-, htail⟩ := List.cons.inj hus
      exact ih (List.cons.inj htail).2

theorem Checked.mark?_last {front : List Token} {m : Token} (h : Checked check us)
    (hus : us = front ++ [m]) : m.kind.mark? = none := by
  induction h generalizing front with
  | nil => simp at hus
  | plain hplain _ ih =>
    cases front with
    | nil =>
      obtain ⟨rfl, -⟩ := List.cons.inj hus
      exact hplain.1
    | cons f front => exact ih (List.cons.inj hus).2
  | number hm hn _ _ ih =>
    rcases front with - | ⟨f, - | ⟨f', front⟩⟩
    · cases (List.cons.inj hus).2
    · obtain ⟨-, htail⟩ := List.cons.inj hus
      obtain ⟨rfl, -⟩ := List.cons.inj htail
      rw [hn]
      rfl
    · obtain ⟨-, htail⟩ := List.cons.inj hus
      exact ih (List.cons.inj htail).2

theorem Begun.ne_endOfInput (h : Begun check t us) : ∀ u ∈ us, u.kind ≠ .endOfInput := by
  cases h with
  | checked hus => exact hus.ne_endOfInput
  | mark hus hm _ =>
    refine List.forall_mem_append.mpr ⟨hus.ne_endOfInput, List.forall_mem_singleton.mpr ?_⟩
    intro hend
    rw [hend] at hm
    cases hm

theorem Begun.check_eq_ok {front back : List Token} {m n : Token} {mark : Mark}
    (h : Begun check t us) (hus : us = front ++ m :: n :: back) (hm : m.kind.mark? = some mark)
    (hn : n.kind = .number) : check mark n = .ok () := by
  cases h with
  | checked hchecked => exact hchecked.check_eq_ok hus hm hn
  | @mark us m' mark' hchecked hm' _ =>
    rcases List.eq_nil_or_concat back with rfl | ⟨back, b, rfl⟩
    · have hlast : us ++ [m'] = (front ++ [m]) ++ [n] := by simpa using hus
      obtain ⟨-, hn'⟩ := List.append_inj' hlast rfl
      cases hn'
      rw [hn] at hm'
      cases hm'
    · have hlast : us ++ [m'] = (front ++ m :: n :: back) ++ [b] := by simpa using hus
      obtain ⟨hfront, -⟩ := List.append_inj' hlast rfl
      exact hchecked.check_eq_ok hfront hm hn

/-- Behind a mark at the end of what is read stands no number. -/
theorem Begun.ne_number {front : List Token} {m : Token} {mark : Mark} (h : Begun check t us)
    (hus : us = front ++ [m]) (hm : m.kind.mark? = some mark) : t.kind ≠ .number := by
  cases h with
  | checked hchecked =>
    rw [hchecked.mark?_last hus] at hm
    cases hm
  | mark _ _ hne => exact hne

/-! ## Reading -/

/-- A sentence is read, the only one that goes with the token ahead. -/
structure Reads (goesOn : List TokenKind) (check : Check) (L : Language Token)
    (used left : List Token) : Prop where
  mem : used ∈ L
  checked : Checked check used
  decided : ∀ us ∈ L, ∀ rest, NotNext goesOn rest → used ++ [ahead left] <+: us ++ rest → us = used

/-- Some front of the tokens is read as a sentence, and these are left. -/
def ReadsTo (goesOn : List TokenKind) (check : Check) (L : Language Token) (ts left : List Token) :
    Prop := ∃ used, ts = used ++ left ∧ Reads goesOn check L used left

/-- Reading fails at the token ahead, or at a number that does not pass the check.  Up to there the
tokens begin a sentence. -/
inductive StopsWith (goesOn : List TokenKind) (check : Check) (L : Language Token) (ts : List Token)
    (e : ParseFault) : Prop
  | refused (used left : List Token) (what : Expectation) (tokens : ts = used ++ left)
      (error : e = refuse (ahead left) what) (begun : Begun check (ahead left) used)
      (viable : ∃ ws, used ++ ws ∈ L) (blocked : Blocked goesOn L used (ahead left))
  | failed (used : List Token) (m n : Token) (rest : List Token) (mark : Mark)
      (tokens : ts = used ++ m :: n :: rest) (checked : Checked check used)
      (isMark : m.kind.mark? = some mark) (isNumber : n.kind = .number)
      (error : check mark n = .error e) (viable : ∃ ws, used ++ m :: n :: ws ∈ L)

/-- The first part of a sentence is told from the tokens that are read of it. -/
theorem Reads.cancel {used used' vs vs' : List Token} (h : Reads goesOn check A used (used' ++ left))
    (hclose : Closes goesOn B goesOn') (hvs : vs ∈ A) (hvs' : vs' ∈ B) (hrest : NotNext goesOn' rest)
    (hbegins : (used ++ used') ++ [ahead left] <+: (vs ++ vs') ++ rest) :
    vs = used ∧ used' ++ [ahead left] <+: vs' ++ rest := by
  rw [List.append_assoc, List.append_assoc] at hbegins
  have hahead : used ++ [ahead (used' ++ left)] <+: used ++ (used' ++ [ahead left]) :=
    (List.prefix_append_right_inj used).mpr (ahead_prefix_append used' left)
  have hsame := h.decided vs hvs (vs' ++ rest) (hclose vs' hvs' rest hrest) (hahead.trans hbegins)
  subst hsame
  exact ⟨rfl, (List.prefix_append_right_inj vs).mp hbegins⟩

theorem ReadsTo.append (h : ReadsTo goesOn check A ts mid) (h' : ReadsTo goesOn' check B mid left)
    (hclose : Closes goesOn B goesOn') : ReadsTo goesOn' check (A * B) ts left := by
  obtain ⟨used, rfl, hA⟩ := h
  obtain ⟨used', rfl, hB⟩ := h'
  refine ⟨used ++ used', (List.append_assoc ..).symm, Language.append_mem_mul hA.mem hB.mem,
    hA.checked.append hB.checked, ?_⟩
  intro us hus rest hrest hbegins
  obtain ⟨vs, hvs, vs', hvs', rfl⟩ := Language.mem_mul.mp hus
  obtain ⟨rfl, hbegins'⟩ := hA.cancel hclose hvs hvs' hrest hbegins
  rw [hB.decided vs' hvs' rest hrest hbegins']

theorem Reads.blocked {used used' : List Token} (h : Reads goesOn check A used (used' ++ left))
    (hblocked : Blocked goesOn' B used' (ahead left)) (hclose : Closes goesOn B goesOn') :
    Blocked goesOn' (A * B) (used ++ used') (ahead left) := by
  intro us hus rest hrest hbegins
  obtain ⟨vs, hvs, vs', hvs', rfl⟩ := Language.mem_mul.mp hus
  obtain ⟨-, hbegins'⟩ := h.cancel hclose hvs hvs' hrest hbegins
  exact hblocked vs' hvs' rest hrest hbegins'

/-- The second part of a production stops. -/
theorem ReadsTo.stops (h : ReadsTo goesOn check A ts mid) (h' : StopsWith goesOn' check B mid e)
    (hclose : Closes goesOn B goesOn') : StopsWith goesOn' check (A * B) ts e := by
  obtain ⟨used, rfl, hA⟩ := h
  cases h' with
  | refused used' left what tokens error begun viable blocked =>
    subst tokens
    obtain ⟨ws, hws⟩ := viable
    refine .refused (used ++ used') left what (List.append_assoc ..).symm error
      (begun.append hA.checked) ⟨ws, ?_⟩ (hA.blocked blocked hclose)
    rw [List.append_assoc]
    exact Language.append_mem_mul hA.mem hws
  | failed used' m n rest mark tokens checked isMark isNumber error viable =>
    subst tokens
    obtain ⟨ws, hws⟩ := viable
    refine .failed (used ++ used') m n rest mark (List.append_assoc ..).symm
      (hA.checked.append checked) isMark isNumber error ⟨ws, ?_⟩
    rw [List.append_assoc]
    exact Language.append_mem_mul hA.mem hws

/-- The first part of a production stops. -/
theorem StopsWith.append_left (h : StopsWith goesOn check A ts e) (hB : ∃ ws, ws ∈ B)
    (hclose : Closes goesOn B goesOn') : StopsWith goesOn' check (A * B) ts e := by
  obtain ⟨ws', hws'⟩ := hB
  have hcomplete : ∀ {us : List Token}, (∃ ws, us ++ ws ∈ A) → ∃ ws, us ++ ws ∈ A * B := by
    rintro us ⟨ws, hws⟩
    refine ⟨ws ++ ws', ?_⟩
    rw [← List.append_assoc]
    exact Language.append_mem_mul hws hws'
  cases h with
  | refused used left what tokens error begun viable blocked =>
    exact .refused used left what tokens error begun (hcomplete viable) (blocked.append_left hclose)
  | failed used m n rest mark tokens checked isMark isNumber error viable =>
    obtain ⟨ws, hws⟩ := viable
    refine .failed used m n rest mark tokens checked isMark isNumber error ⟨ws ++ ws', ?_⟩
    have hmem := Language.append_mem_mul hws hws'
    rwa [List.append_assoc] at hmem

theorem ReadsTo.mono (h : ReadsTo goesOn check L ts left) (hsub : goesOn ⊆ goesOn') :
    ReadsTo goesOn' check L ts left := by
  obtain ⟨used, rfl, hL⟩ := h
  refine ⟨used, rfl, hL.mem, hL.checked, ?_⟩
  intro us hus rest hrest
  exact hL.decided us hus rest (hrest.mono goesOn hsub)

theorem StopsWith.mono (h : StopsWith goesOn check L ts e) (hsub : goesOn ⊆ goesOn') :
    StopsWith goesOn' check L ts e := by
  cases h with
  | refused used left what tokens error begun viable blocked =>
    exact .refused used left what tokens error begun viable (blocked.mono hsub)
  | failed used m n rest mark tokens checked isMark isNumber error viable =>
    exact .failed used m n rest mark tokens checked isMark isNumber error viable

/-! ## Choices -/

theorem Reads.or {used : List Token} (h : Reads goesOn check A used left)
    (hB : Blocked goesOn B [] (ahead (used ++ left))) : Reads goesOn check (A + B) used left := by
  refine ⟨(Language.mem_add _ _ _).mpr (.inl h.mem), h.checked, ?_⟩
  intro us hus rest hrest hbegins
  rcases (Language.mem_add _ _ us).mp hus with hus | hus
  · exact h.decided us hus rest hrest hbegins
  · exact absurd ((ahead_prefix_append used left).trans hbegins) (hB us hus rest hrest)

/-- The token ahead decides for the first of two alternatives. -/
theorem ReadsTo.or (h : ReadsTo goesOn check A ts left) (hB : Blocked goesOn B [] (ahead ts)) :
    ReadsTo goesOn check (A + B) ts left := by
  obtain ⟨used, rfl, hA⟩ := h
  exact ⟨used, rfl, hA.or hB⟩

/-- The token ahead decides for the first of two alternatives, and there reading stops. -/
theorem StopsWith.or (h : StopsWith goesOn check A ts e) (hB : Blocked goesOn B [] (ahead ts)) :
    StopsWith goesOn check (A + B) ts e := by
  cases h with
  | refused used left what tokens error begun viable blocked =>
    obtain ⟨ws, hws⟩ := viable
    refine .refused used left what tokens error begun
      ⟨ws, (Language.mem_add _ _ _).mpr (.inl hws)⟩ ?_
    intro us hus rest hrest hbegins
    rcases (Language.mem_add _ _ us).mp hus with hus | hus
    · exact blocked us hus rest hrest hbegins
    · subst tokens
      exact hB us hus rest hrest ((ahead_prefix_append used left).trans hbegins)
  | failed used m n rest mark tokens checked isMark isNumber error viable =>
    obtain ⟨ws, hws⟩ := viable
    exact .failed used m n rest mark tokens checked isMark isNumber error
      ⟨ws, (Language.mem_add _ _ _).mpr (.inl hws)⟩

/-- Reading stops before the first token of every alternative. -/
theorem Begins.stops (h : Begins kinds L) (hnot : (ahead ts).kind ∉ kinds) (hL : ∃ ws, ws ∈ L)
    (what : Expectation) : StopsWith goesOn check L ts (refuse (ahead ts) what) :=
  .refused [] ts what rfl rfl (.checked .nil) hL (h.blocked hnot)

/-! ## What a production comes to -/

/-- A production either leaves some tokens, behind a sentence that is read, or it stops. -/
def Decides (goesOn : List TokenKind) (check : Check) (L : Language Token) (ts : List Token) :
    Except ParseFault (List Token) → Prop
  | .ok left => ReadsTo goesOn check L ts left
  | .error e => StopsWith goesOn check L ts e

section
variable {r : Except ParseFault (List Token)} {k : List Token → Except ParseFault (List Token)}

theorem ReadsTo.bind (h : ReadsTo goesOn check A ts mid) (h' : Decides goesOn' check B mid r)
    (hclose : Closes goesOn B goesOn') : Decides goesOn' check (A * B) ts r := by
  cases r with
  | ok left => exact h.append h' hclose
  | error e => exact h.stops h' hclose

/-- One production behind another. -/
theorem Decides.bind (h : Decides goesOn check A ts r) (hB : ∃ ws, ws ∈ B)
    (hclose : Closes goesOn B goesOn')
    (h' : ∀ mid, r = .ok mid → Decides goesOn' check B mid (k mid)) :
    Decides goesOn' check (A * B) ts (r >>= k) := by
  cases r with
  | ok mid => exact ReadsTo.bind h (h' mid rfl) hclose
  | error e => exact StopsWith.append_left h hB hclose

/-- A part that nothing goes on with, as a single token, says nothing about what stands behind it. -/
theorem Decides.next (h : Decides [] check A ts r) (hB : ∃ ws, ws ∈ B)
    (h' : ∀ mid, r = .ok mid → Decides goesOn check B mid (k mid)) :
    Decides goesOn check (A * B) ts (r >>= k) :=
  h.bind hB (closes_nil B goesOn) h'

theorem Decides.mono (h : Decides goesOn check L ts r) (hsub : goesOn ⊆ goesOn') :
    Decides goesOn' check L ts r := by
  cases r with
  | ok left => exact ReadsTo.mono h hsub
  | error e => exact StopsWith.mono h hsub

theorem Decides.or (h : Decides goesOn check A ts r) (hB : Blocked goesOn B [] (ahead ts)) :
    Decides goesOn check (A + B) ts r := by
  cases r with
  | ok left => exact ReadsTo.or h hB
  | error e => exact StopsWith.or h hB

theorem Decides.or_left (h : Decides goesOn check A ts r) (hB : Begins kinds B)
    (hnot : (ahead ts).kind ∉ kinds) : Decides goesOn check (A + B) ts r :=
  h.or (hB.blocked hnot)

theorem Decides.or_right (h : Decides goesOn check B ts r) (hA : Begins kinds A)
    (hnot : (ahead ts).kind ∉ kinds) : Decides goesOn check (A + B) ts r := by
  rw [add_comm]
  exact h.or (hA.blocked hnot)

theorem decides_one (ts : List Token) : Decides goesOn check 1 ts (.ok ts) := by
  refine ⟨[], rfl, Language.nil_mem_one, .nil, ?_⟩
  intro us hus _ _ _
  exact (Language.mem_one us).mp hus

end

/-! ## Single tokens -/

section
variable {kind : TokenKind} {what : Expectation} {r : Except ParseFault (List Token)}

theorem exists_mem_oneOf (kind : TokenKind) : ∃ ws, ws ∈ oneOf [kind] :=
  ⟨[⟨kind, 0, []⟩], _, List.mem_singleton_self kind, rfl⟩

theorem readsTo_cons (rest : List Token) (ht : t.kind = kind) (hplain : IsPlain kind) :
    ReadsTo [] check (oneOf [kind]) (t :: rest) rest := by
  subst ht
  refine ⟨[t], rfl, ⟨t, List.mem_singleton_self _, rfl⟩, .plain hplain .nil, ?_⟩
  rintro _ ⟨u, -, rfl⟩ rest' - hbegins
  rw [List.singleton_append, List.singleton_append, List.cons_prefix_cons] at hbegins
  rw [hbegins.1]

theorem Decides.behind (h : Decides goesOn check L ts.tail r) (hk : (ahead ts).kind = kind)
    (hplain : IsPlain kind) : Decides goesOn check (oneOf [kind] * L) ts r := by
  cases ts with
  | nil => exact absurd hk.symm hplain.2
  | cons t rest => exact (readsTo_cons rest hk hplain).bind h (closes_nil L goesOn)

/-- A token may be left out together with what stands behind it. -/
theorem Decides.option (h : Decides goesOn check L ts.tail r) (hplain : IsPlain kind)
    (hmem : kind ∈ goesOn) : Decides goesOn check (1 + oneOf [kind] * L) ts
      (if (ahead ts).kind = kind then r else .ok ts) := by
  have hbegins : Begins [kind] (oneOf [kind] * L) := (begins_oneOf [kind]).mul L
  split
  · next hk =>
    rw [add_comm]
    exact (h.behind hk hplain).or (blocked_one (hk ▸ hmem))
  · next hk => exact (decides_one ts).or_left hbegins (fun hmem => hk (List.mem_singleton.mp hmem))

/-- A separator and what stands behind it may follow. -/
theorem Decides.followed (h : Decides goesOn check A ts r)
    (k : List Token → Except ParseFault (List Token)) (hplain : IsPlain kind) (hkind : kind ∉ goesOn)
    (hmore : ∀ mid, r = .ok mid → Decides (kind :: goesOn) check L mid.tail (k mid.tail)) :
    Decides (kind :: goesOn) check (A * (1 + oneOf [kind] * L)) ts
      (r >>= fun mid => if (ahead mid).kind = kind then k mid.tail else .ok mid) := by
  have hbegins : Begins [kind] (oneOf [kind] * L) := (begins_oneOf [kind]).mul L
  have hclose : Closes goesOn (1 + oneOf [kind] * L) (kind :: goesOn) :=
    hbegins.closes_one_add (by simpa using hkind) (List.subset_cons_self kind goesOn)
  refine h.bind ⟨[], nil_mem_one_add⟩ hclose fun mid hmid => ?_
  exact (hmore mid hmid).option hplain List.mem_cons_self

/-- The token ahead is refused, which has another kind than the one that is expected. -/
theorem expect_eq_error (h : expect kind what ts = .error e) :
    e = refuse (ahead ts) what ∧ (ts ≠ [] → (ahead ts).kind ≠ kind) := by
  cases ts with
  | nil =>
    cases h
    exact ⟨rfl, fun hne => absurd rfl hne⟩
  | cons t rest =>
    rw [expect] at h
    split at h
    · cases h
    · next hne =>
      cases h
      exact ⟨rfl, fun _ => hne⟩

/-- Where no tokens are left, the end of the input stands ahead. -/
theorem ahead_ne_of_expect (h : expect kind what ts = .error e) (hend : kind ≠ .endOfInput) :
    (ahead ts).kind ≠ kind := by
  cases ts with
  | nil => exact hend.symm
  | cons t rest => exact (expect_eq_error h).2 (List.cons_ne_nil t rest)

end

/-! ## What is left -/

/-- The tokens that a production leaves. -/
def leaves {α : Type} {P : α × List Token → Prop}
    (r : Except ParseFault { r : α × List Token // P r }) : Except ParseFault (List Token) :=
  r.map (·.val.2)

section
variable {α : Type} {P : α × List Token → Prop} {r : Except ParseFault { r : α × List Token // P r }}

theorem Decides.readsTo {a : α} {hP} (h : Decides goesOn check L ts (leaves r))
    (hr : r = .ok ⟨(a, left), hP⟩) : ReadsTo goesOn check L ts left := by
  subst hr
  exact h

theorem Decides.stopsWith (h : Decides goesOn check L ts (leaves r)) (hr : r = .error e) :
    StopsWith goesOn check L ts e := by
  subst hr
  exact h

theorem length_lt_of_leaves {r : Except ParseFault (Taken α ts)} (h : leaves r = .ok left) :
    left.length < ts.length := by
  cases r with
  | error e => cases h
  | ok r =>
    cases h
    exact r.property

end

theorem decides_expect {kind : TokenKind} (hplain : IsPlain kind) (what : Expectation)
    (ts : List Token) : Decides [] check (oneOf [kind]) ts (leaves (expect kind what ts)) := by
  cases h : expect kind what ts with
  | ok r =>
    obtain ⟨⟨t, left⟩, hlt⟩ := r
    obtain ⟨rfl, ht⟩ := expect_eq_ok h
    exact readsTo_cons left ht hplain
  | error e =>
    have hne : (ahead ts).kind ∉ [kind] := by
      rw [List.mem_singleton]
      exact ahead_ne_of_expect h hplain.2
    rw [(expect_eq_error h).1]
    exact (begins_oneOf [kind]).stops hne (exists_mem_oneOf kind) what

section
variable {kind : TokenKind} {r : Except ParseFault (List Token)}

/-- A bracket has to stand behind a production. -/
theorem Decides.until (h : Decides goesOn check L ts r) (what : Expectation) (hplain : IsPlain kind)
    (hkind : kind ∉ goesOn) : Decides goesOn' check (L * oneOf [kind]) ts
      (r >>= fun mid => leaves (expect kind what mid)) := by
  have hclose : Closes goesOn (oneOf [kind]) goesOn' := (begins_oneOf [kind]).closes (by simpa using hkind)
  refine h.bind (exists_mem_oneOf kind) hclose fun mid _ => ?_
  exact (decides_expect hplain what mid).mono (List.nil_subset goesOn')

/-- A bracket stands next, or behind a production. -/
theorem Decides.closed (h : Decides goesOn check L ts r) (what : Expectation) (hplain : IsPlain kind)
    (hkind : kind ∉ goesOn) (hbegins : Begins kinds L) (hnot : kind ∉ kinds) :
    Decides goesOn' check (oneOf [kind] + L * oneOf [kind]) ts
      (if (ahead ts).kind = kind then leaves (expect kind what ts)
        else r >>= fun mid => leaves (expect kind what mid)) := by
  split
  · next hk =>
    exact ((decides_expect hplain what ts).mono (List.nil_subset goesOn')).or_left (hbegins.mul _)
      (hk ▸ hnot)
  · next hk =>
    exact (h.until what hplain hkind).or_right (begins_oneOf [kind])
      (fun hmem => hk (List.mem_singleton.mp hmem))

end

/-! ## Numbers behind marks -/

section
variable {m n : Token} {mark : Mark}

theorem begins_numberTokens : Begins markKinds numberTokens := (begins_oneOf markKinds).mul _

theorem readsTo_number (rest : List Token) (hm : m.kind.mark? = some mark) (hn : n.kind = .number)
    (hcheck : check mark n = .ok ()) : ReadsTo [] check numberTokens (m :: n :: rest) rest := by
  refine ⟨[m, n], rfl, mem_numberTokens hm hn, .number hm hn hcheck .nil, ?_⟩
  intro us hus rest' _ hbegins
  obtain ⟨m', _, -, hvs, rfl⟩ := mem_oneOf_mul.mp hus
  obtain ⟨n', -, rfl⟩ := mem_oneOf_single.mp hvs
  simp only [List.cons_append, List.nil_append, List.cons_prefix_cons] at hbegins
  rw [hbegins.1, hbegins.2.1]

theorem stopsWith_of_mark (hm : m.kind.mark? = some mark) {what : Expectation}
    (h : expect .number what rest = .error e) : StopsWith [] check numberTokens (m :: rest) e := by
  have hne : (ahead rest).kind ≠ .number := ahead_ne_of_expect h (by decide)
  refine .refused [m] rest what rfl (expect_eq_error h).1 (.mark .nil hm hne)
    ⟨[⟨.number, 0, []⟩], mem_numberTokens hm rfl⟩ ?_
  intro us hus rest' _ hbegins
  obtain ⟨m', _, -, hvs, rfl⟩ := mem_oneOf_mul.mp hus
  obtain ⟨n', hn', rfl⟩ := mem_oneOf_single.mp hvs
  simp only [List.cons_append, List.nil_append, List.cons_prefix_cons] at hbegins
  rw [hbegins.2.1] at hne
  exact hne hn'

/-- What a number behind a mark leaves when it passes the check. -/
def leavesNumber (check : Check) (mark : Mark) (what : Expectation) (ts : List Token) :
    Except ParseFault (List Token) :=
  match expect .number what ts with
  | .error e => .error e
  | .ok ⟨(n, left), _⟩ => (check mark n).map fun _ => left

theorem decides_number (hm : m.kind.mark? = some mark) (what : Expectation) (rest : List Token) :
    Decides [] check numberTokens (m :: rest) (leavesNumber check mark what rest) := by
  rw [leavesNumber]
  cases h : expect .number what rest with
  | error e => exact stopsWith_of_mark hm h
  | ok r =>
    obtain ⟨⟨n, left⟩, hlt⟩ := r
    obtain ⟨rfl, hn⟩ := expect_eq_ok h
    show Decides _ _ _ _ ((check mark n).map fun _ => left)
    cases hcheck : check mark n with
    | ok u => exact readsTo_number left hm hn hcheck
    | error e => exact .failed [] m n left mark rfl .nil hm hn hcheck ⟨[], mem_numberTokens hm hn⟩

end

end ApiDocs.Grammar
