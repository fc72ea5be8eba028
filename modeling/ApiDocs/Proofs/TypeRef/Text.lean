import ApiDocs.Proofs.Text.Apart
import ApiDocs.Proofs.TypeRef.Standard

/-!
# Types read off their texts

A reference whose names are words is known from its text, and so is where that text ends, unless what
follows could go on with it.  All that is lost is whether an array suffix without a comma was written
with one dimension or without any.

* `TypeRef.toldApart`: references of words are told apart by their texts, but for their standard form;
* `TypeRef.map_standard_eq_of_intercalate_eq`: so are lists of them.
-/

namespace ApiDocs

open Text

/-! ## Array suffixes -/

theorem toList_pushn (s : String) (c : Char) (n : Nat) :
    (s.pushn c n).toList = s.toList ++ List.replicate n c := by
  rw [String.pushn_eq_repeat_push]
  induction n with
  | zero => simp [Nat.repeat]
  | succ n ih => rw [Nat.repeat, String.toList_push, ih, List.append_assoc, List.replicate_succ']

theorem toList_arrayText (n : Int) :
    (arrayText n).toList = '[' :: (List.replicate (n - 1).toNat ',' ++ [']']) := by
  simp [arrayText, toList_pushn]

/-- A suffix tells the number of its dimensions, unless it is without a comma. -/
theorem toldApart_arrayText (n m : Int) :
    ToldApart (fun n => (arrayText n).toList) (max · 1) (fun _ => false) n m := by
  intro s s' _ _ h
  simp only [toList_arrayText, List.cons_append, List.append_assoc, List.nil_append] at h
  obtain ⟨hcommas, hrest⟩ := @toldApart_of_forall (· == ',') _ _
    (fun c hc => by simp [List.eq_of_mem_replicate hc])
    (fun c hc => by simp [List.eq_of_mem_replicate hc])
    (']' :: s) (']' :: s') (stops_cons.mpr rfl) (stops_cons.mpr rfl) (List.cons.inj h).2
  have hlength : (n - 1).toNat = (m - 1).toNat := by
    simpa using congrArg List.length hcommas
  have hmax : max n 1 = max m 1 := by omega
  exact ⟨hmax, (List.cons.inj hrest).2⟩

/-- Suffixes behind one another are told apart in front of what is no further suffix. -/
theorem toldApart_arrays (as bs : List Int) :
    ToldApart (List.flatMap fun n => (arrayText n).toList) (List.map (max · 1)) (· == '[') as bs := by
  intro s s' hs hs' h
  have hsuffix : ∀ {n : Int} {r}, ¬ Stops (· == '[') ((arrayText n).toList ++ r) := fun hr => by
    rw [toList_arrayText, List.cons_append, stops_cons] at hr
    cases hr
  induction as generalizing bs with
  | nil =>
    cases bs with
    | nil => exact ⟨rfl, h⟩
    | cons b bs =>
      rw [List.flatMap_nil, List.nil_append, List.flatMap_cons, List.append_assoc] at h
      exact absurd (h ▸ hs) hsuffix
  | cons a as ih =>
    cases bs with
    | nil =>
      rw [List.flatMap_nil, List.nil_append, List.flatMap_cons, List.append_assoc] at h
      exact absurd (h ▸ hs') hsuffix
    | cons b bs =>
      rw [List.flatMap_cons, List.flatMap_cons, List.append_assoc, List.append_assoc] at h
      obtain ⟨hab, hrest⟩ := toldApart_arrayText a b _ _ (fun _ _ => rfl) (fun _ _ => rfl) h
      obtain ⟨hmore, hrest⟩ := ih bs hrest
      exact ⟨List.cons_eq_cons.mpr ⟨hab, hmore⟩, hrest⟩

/-! ## References -/

/-- The characters by which a name of a path goes on. -/
def nameGoesOn (c : Char) : Bool := c == '<' || isNameRest c

/-- The characters by which a reference goes on. -/
def typeGoesOn (c : Char) : Bool := c == '[' || (c == '.' || nameGoesOn c)

theorem toList_angled_cons (t : TypeRef) (ts : List TypeRef) :
    (angled ((t :: ts).map TypeRef.text)).toList =
      '<' :: ([',', ' '].intercalate ((t :: ts).map fun t => t.text.toList) ++ ['>']) := by
  simp [angled, String.toList_intercalate, Function.comp_def]

/-- Arguments between angle brackets are told apart from others and from none. -/
theorem toldApart_angled {ts us : List TypeRef} (h : ∀ t ∈ ts, ∀ u ∈ us,
    ToldApart (fun t => t.text.toList) TypeRef.standard typeGoesOn t u) :
    ToldApart (fun ts => (angled (ts.map TypeRef.text)).toList) (List.map TypeRef.standard)
      (· == '<') ts us := by
  intro s s' hs hs' heq
  have hangled : ∀ {t : TypeRef} {ts : List TypeRef} {r},
      ¬ Stops (· == '<') ((angled ((t :: ts).map TypeRef.text)).toList ++ r) := fun hr => by
    rw [toList_angled_cons, List.cons_append, stops_cons] at hr
    cases hr
  cases ts with
  | nil =>
    cases us with
    | nil => exact ⟨rfl, heq⟩
    | cons u us =>
      obtain rfl : s = _ ++ s' := heq
      exact absurd hs hangled
  | cons t ts =>
    cases us with
    | nil =>
      obtain rfl : _ ++ s = s' := heq
      exact absurd hs' hangled
    | cons u us =>
      simp only [toList_angled_cons, List.cons_append, List.append_assoc, List.nil_append] at heq
      obtain ⟨hargs, hrest⟩ := toldApart_intercalate [' '] (by decide : typeGoesOn ',' = false)
        (List.cons_ne_nil t ts) (List.cons_ne_nil u us) h ('>' :: s) ('>' :: s')
        (stops_cons.mpr (by decide)) (stops_cons.mpr (by decide)) (List.cons.inj heq).2
      exact ⟨hargs, (List.cons.inj hrest).2⟩

/-- Names in front of arguments between angle brackets are told apart where their characters end. -/
theorem eq_of_named_append_eq {rest : Char → Bool} (hbracket : rest '<' = false) {a b : String}
    (ha : ∀ c ∈ a.toList, rest c = true) (hb : ∀ c ∈ b.toList, rest c = true) {ts us : List TypeRef}
    (h : ∀ t ∈ ts, ∀ u ∈ us, ToldApart (fun t => t.text.toList) TypeRef.standard typeGoesOn t u)
    {s s' : List Char} (hs : Stops (fun c => c == '<' || rest c) s)
    (hs' : Stops (fun c => c == '<' || rest c) s')
    (heq : a.toList ++ (angled (ts.map TypeRef.text)).toList ++ s =
      b.toList ++ (angled (us.map TypeRef.text)).toList ++ s') :
    a = b ∧ ts.map TypeRef.standard = us.map TypeRef.standard ∧ s = s' := by
  rw [List.append_assoc, List.append_assoc] at heq
  have hstops : ∀ {ts : List TypeRef} {r}, Stops (fun c => c == '<' || rest c) r →
      Stops rest ((angled (ts.map TypeRef.text)).toList ++ r) := by
    intro ts r hr
    cases ts with
    | nil => exact hr.mono fun c hc => by rw [hc, Bool.or_true]
    | cons t ts =>
      rw [toList_angled_cons, List.cons_append, stops_cons]
      exact hbracket
  obtain ⟨hname, hrest⟩ := toldApart_of_forall ha hb _ _ (hstops hs) (hstops hs') heq
  obtain ⟨hargs, hrest⟩ := toldApart_angled h s s' (hs.mono fun c hc => by rw [hc, Bool.true_or])
    (hs'.mono fun c hc => by rw [hc, Bool.true_or]) hrest
  exact ⟨String.toList_inj.mp hname, hargs, hrest⟩

theorem TypeName.toldApart {n m : TypeName} (hn : IsWord n.name) (hm : IsWord m.name)
    (h : ∀ t ∈ n.arguments, ∀ u ∈ m.arguments,
      ToldApart (fun t => t.text.toList) TypeRef.standard typeGoesOn t u) :
    ToldApart (fun n => n.text.toList) TypeName.standard nameGoesOn n m := by
  intro s s' hs hs' heq
  simp only [TypeName.text_eq, String.toList_append] at heq
  obtain ⟨hname, hargs, hrest⟩ := eq_of_named_append_eq (by decide) hn.2 hm.2 h hs hs' heq
  exact ⟨by rw [standard_eq, standard_eq, hname, hargs], hrest⟩

namespace TypeRef

theorem toList_text_mk (names : List TypeName) (arrays : List Int) :
    (mk names arrays).text.toList = ['.'].intercalate (names.map fun n => n.text.toList) ++
      arrays.flatMap fun n => (arrayText n).toList := by
  rw [text_mk, String.toList_append, String.toList_intercalate, String.toList_join, List.map_map,
    List.flatMap_map]
  rfl

/-- References whose names are words are told apart by their texts, but for their standard form. -/
theorem toldApart {t u : TypeRef} (ht : t.Built IsWord) (hu : u.Built IsWord) :
    ToldApart (fun t => t.text.toList) standard typeGoesOn t u := by
  induction ht generalizing u with
  | @mk names arrays hne hnames _ ih =>
    obtain @⟨names', arrays', hne', hnames', harguments'⟩ := hu
    intro s s' hs hs' heq
    simp only [toList_text_mk, List.append_assoc] at heq
    have hstops : ∀ {arrays : List Int} {r}, Stops typeGoesOn r →
        Stops (fun c => c == '.' || nameGoesOn c)
          (arrays.flatMap (fun n => (arrayText n).toList) ++ r) := by
      intro arrays r hr
      cases arrays with
      | nil => exact hr.mono fun c hc => by rw [typeGoesOn, hc, Bool.or_true]
      | cons n arrays =>
        rw [List.flatMap_cons, toList_arrayText, List.cons_append, List.cons_append, stops_cons]
        decide
    obtain ⟨hpath, hrest⟩ := toldApart_intercalate [] (by decide : nameGoesOn '.' = false) hne hne'
      (fun n hn m hm => TypeName.toldApart (hnames n hn) (hnames' m hm) fun t ht u hu =>
        ih n hn t ht (harguments' m hm u hu)) _ _ (hstops hs) (hstops hs') heq
    obtain ⟨harrays, hrest⟩ := toldApart_arrays arrays arrays' s s'
      (hs.mono fun c hc => by rw [typeGoesOn, hc, Bool.true_or])
      (hs'.mono fun c hc => by rw [typeGoesOn, hc, Bool.true_or]) hrest
    exact ⟨by rw [standard_mk, standard_mk, hpath, harrays], hrest⟩

theorem Built.text_ne_empty {t : TypeRef} (h : t.Built IsWord) : t.text ≠ "" := by
  obtain @⟨names, arrays, hne, hnames, -⟩ := h
  obtain ⟨n, names, rfl⟩ := List.exists_cons_of_ne_nil hne
  intro hempty
  have hchars := congrArg String.toList hempty
  rw [toList_text_mk, List.map_cons, String.toList_empty, List.append_eq_nil_iff] at hchars
  have hname : n.text.toList = [] := by
    cases names with
    | nil => simpa using hchars.1
    | cons => simp at hchars
  rw [TypeName.text_eq, String.toList_append, List.append_eq_nil_iff, String.toList_eq_nil_iff] at hname
  exact (hnames n List.mem_cons_self).1 hname.1

/-- The text of a list of references settles how many there are and each of them, but for its
standard form. -/
theorem map_standard_eq_of_intercalate_eq {ts us : List TypeRef} (hts : ∀ t ∈ ts, t.Built IsWord)
    (hus : ∀ u ∈ us, u.Built IsWord)
    (h : ", ".intercalate (ts.map text) = ", ".intercalate (us.map text)) :
    ts.map standard = us.map standard := by
  have hne : ∀ {ts : List TypeRef} (t : TypeRef), t.Built IsWord →
      ", ".intercalate ((t :: ts).map text) ≠ "" := by
    intro ts t ht hempty
    have hchars := congrArg String.toList hempty
    cases ts with
    | nil => exact ht.text_ne_empty (by simpa using hempty)
    | cons => simp [String.toList_intercalate] at hchars
  cases ts with
  | nil =>
    cases us with
    | nil => rfl
    | cons u us => exact absurd h.symm (hne u (hus u List.mem_cons_self))
  | cons t ts =>
    cases us with
    | nil => exact absurd h (hne t (hts t List.mem_cons_self))
    | cons u us =>
      have hchars := congrArg String.toList h
      simp only [String.toList_intercalate, List.map_map] at hchars
      exact (toldApart_intercalate [' '] (by decide : typeGoesOn ',' = false)
        (List.cons_ne_nil t ts) (List.cons_ne_nil u us)
        (fun t ht u hu => toldApart (hts t ht) (hus u hu)) [] [] nofun nofun
        (congrArg (· ++ []) hchars)).1

end TypeRef

end ApiDocs
