import Mathlib
import ApiDocs.Proofs.Logged
import ApiDocs.Proofs.Text.Parts
import ApiDocs.Record.Prose

/-!
# Documentation text is flat

Lists within lists are gone through one by one, and every list joins the lines of its items, some of
which are joined already.  In the end it is as if there had been one list of everything that is no list.
Every line is stripped of blanks and not empty, so the whole needs no stripping any more.

* `Datum.flattened`, `Datum.lines`: what a datum holds that is no list, and the lines of it;
* `Datum.proseWithin_eq`: the text of a datum is that of its lines;
* `Datum.prose_flattens`: so it has no blanks at its ends, is its own text, and does not depend on how
  the lists are nested.
-/

namespace ApiDocs

open Text

/-! ## Lines -/

theorem IsUnpadded.append {s t : String} (hs : IsUnpadded s) (ht : IsUnpadded t) (hs' : s ≠ "")
    (ht' : t ≠ "") (sep : String) : IsUnpadded (s ++ sep ++ t) := by
  have hs' : s.toList ≠ [] := mt String.toList_eq_nil_iff.mp hs'
  have ht' : t.toList ≠ [] := mt String.toList_eq_nil_iff.mp ht'
  refine ⟨fun c hc => hs.1 c ?_, fun c hc => ht.2 c ?_⟩
  · rwa [String.toList_append, String.toList_append, List.append_assoc,
      List.head?_append_of_ne_nil _ hs'] at hc
  · rwa [String.toList_append, List.getLast?_append_of_ne_nil _ ht'] at hc

/-- Lines one below the other, if there are any. -/
def joined? (lines : List String) : Option String :=
  if lines = [] then none else some ("\n".intercalate lines)

/-- A line is not empty and has no blanks at its ends. -/
def IsLine (s : String) : Prop := s ≠ "" ∧ IsUnpadded s

/-- Lines one below the other are like one line. -/
theorem isLine_intercalate {lines : List String} (hne : lines ≠ []) (h : ∀ s ∈ lines, IsLine s) :
    IsLine ("\n".intercalate lines) := by
  induction lines with
  | nil => exact absurd rfl hne
  | cons s lines ih =>
    obtain ⟨hs, hlines⟩ := List.forall_mem_cons.mp h
    rcases eq_or_ne lines [] with rfl | hmore
    · rwa [String.intercalate_singleton]
    · obtain ⟨hrest, hends⟩ := ih hmore hlines
      rw [String.intercalate_cons_of_ne_nil hmore]
      refine ⟨fun hempty => ?_, hs.2.append hends hs.1 hrest "\n"⟩
      exact hrest (String.append_eq_empty_iff.mp hempty).2

theorem nonempty?_intercalate {lines : List String} (h : ∀ s ∈ lines, IsLine s) :
    Datum.nonempty? ("\n".intercalate lines) = joined? lines := by
  rw [Datum.nonempty?, joined?]
  by_cases hne : lines = []
  · rw [hne]
    rfl
  · rw [if_neg hne, if_neg]
    exact mt String.isEmpty_iff.mp (isLine_intercalate hne h).1

/-- Lines that are joined group by group and then once more are joined. -/
theorem intercalate_filterMap_joined? (groups : List (List String)) :
    "\n".intercalate (groups.filterMap joined?) = "\n".intercalate groups.flatten := by
  have hnil : ∀ gs : List (List String), gs.filterMap joined? = [] ↔ gs.flatten = [] := by
    intro gs
    rw [List.filterMap_eq_nil_iff, List.flatten_eq_nil_iff]
    refine forall₂_congr fun group _ => ?_
    rw [joined?, ite_eq_left_iff]
    exact ⟨fun h => by_contra fun hne => Option.some_ne_none _ (h hne), fun h hne => absurd h hne⟩
  induction groups with
  | nil => rfl
  | cons group groups ih =>
    rw [List.filterMap_cons, List.flatten_cons, joined?]
    by_cases hgroup : group = []
    · rw [if_pos hgroup, hgroup]
      exact ih
    · rw [if_neg hgroup]
      dsimp only
      by_cases hmore : groups.flatten = []
      · rw [(hnil groups).mpr hmore, hmore, List.append_nil, String.intercalate_singleton]
      · rw [String.intercalate_cons_of_ne_nil (mt (hnil groups).mp hmore), ih,
          String.intercalate_append_of_ne_nil hgroup hmore]

namespace Datum

/-! ## Lists within lists -/

mutual
/-- What a datum holds that is no list, however deep in lists, in order. -/
def flattened : Datum → List Datum
  | list xs => allFlattened xs
  | d => [d]
/-- What some data hold that is no list. -/
def allFlattened : List Datum → List Datum
  | [] => []
  | x :: xs => x.flattened ++ allFlattened xs
end

/-- Whether a datum has a mark, so that it lies within itself or stands for what lies around it. -/
def isMarked : Datum → Bool
  | knot .. | again .. => true
  | _ => false

/-- No list lies within itself, nor does anything that is held in lists. -/
def IsUnmarked (d : Datum) : Prop := ∀ x ∈ d.flattened, x.isMarked = false

instance (d : Datum) : Decidable d.IsUnmarked :=
  inferInstanceAs (Decidable (∀ x ∈ d.flattened, x.isMarked = false))

/-- The line of what is no list: its text without blanks at the ends, unless it is null or nothing is
left of it. -/
def line? : Datum → Option String
  | null => none
  | d => if strip d.toText = "" then none else some (strip d.toText)

/-- The lines of a datum. -/
def lines (d : Datum) : List String := d.flattened.filterMap line?

theorem isLine_of_line? {d : Datum} {s : String} (h : d.line? = some s) : IsLine s := by
  unfold line? at h
  split at h
  · cases h
  · split at h
    · cases h
    · next hne =>
      cases h
      exact ⟨hne, isUnpadded_strip _⟩

theorem isLine_of_mem_lines {d : Datum} {s : String} (h : s ∈ d.lines) : IsLine s := by
  obtain ⟨x, -, hx⟩ := List.mem_filterMap.mp h
  exact isLine_of_line? hx

theorem allFlattened_eq_flatMap (xs : List Datum) : allFlattened xs = xs.flatMap flattened := by
  induction xs with
  | nil => rfl
  | cons x xs ih => rw [allFlattened, ih, List.flatMap_cons]

theorem IsUnmarked.of_mem {xs : List Datum} (h : (list xs).IsUnmarked) {x : Datum} (hx : x ∈ xs) :
    x.IsUnmarked := by
  intro y hy
  refine h y ?_
  rw [flattened, allFlattened_eq_flatMap]
  exact List.mem_flatMap.mpr ⟨x, hx, hy⟩

theorem lines_list (xs : List Datum) : (list xs).lines = (xs.map lines).flatten := by
  rw [lines, flattened, allFlattened_eq_flatMap, List.filterMap_flatMap, List.flatMap_def]
  rfl

mutual
/-- A datum can be written when everything it holds in lists can. -/
theorem isWritable_eq_all (d : Datum) : d.isWritable = d.flattened.all isWritable := by
  cases d with
  | list xs => rw [isWritable, flattened, areWritable_eq_all xs]
  | _ => exact (Bool.and_true _).symm
theorem areWritable_eq_all (xs : List Datum) :
    areWritable xs = (allFlattened xs).all isWritable := by
  cases xs with
  | nil => rfl
  | cons x xs =>
    rw [areWritable, allFlattened, List.all_append, isWritable_eq_all x, areWritable_eq_all xs]
end

/-- The text of what is no list is its only line. -/
theorem writtenProse_eq {d : Datum} (hflat : d.flattened = [d])
    (hline : d.line? = if strip d.toText = "" then none else some (strip d.toText)) :
    (do .ok (nonempty? (strip (← (d.closedBy []).written)))) =
      if d.isWritable then .ok (joined? d.lines) else .error Fault.unwritableNumber := by
  have hjoined : joined? d.lines = nonempty? (strip d.toText) := by
    rw [lines, hflat, List.filterMap_cons, hline, nonempty?]
    by_cases hempty : strip d.toText = ""
    · rw [if_pos hempty, if_pos (String.isEmpty_iff.mpr hempty)]
      rfl
    · rw [if_neg hempty, if_neg (mt String.isEmpty_iff.mp hempty)]
      exact congrArg some String.intercalate_singleton
  rw [closedBy_nil, written, hjoined]
  cases d.isWritable <;> rfl

mutual
/-- The text of a datum is that of its lines, as long as all numbers in it can be written. -/
theorem proseWithin_eq (d : Datum) (h : d.IsUnmarked) : d.proseWithin [] =
    if d.isWritable then .ok (joined? d.lines) else .error .unwritableNumber := by
  cases d with
  | null => rfl
  | list xs =>
    rw [proseWithin, prosesWithin_eq xs fun _ hx => h.of_mem hx, isWritable]
    cases areWritable xs with
    | false => rfl
    | true =>
      show Except.ok (nonempty? ("\n".intercalate ((xs.map lines).filterMap joined?))) = _
      rw [intercalate_filterMap_joined?, ← lines_list,
        nonempty?_intercalate fun _ hs => isLine_of_mem_lines hs]
      rfl
  | knot mark whole => cases h (knot mark whole) List.mem_cons_self
  | again mark isMap => cases h (again mark isMap) List.mem_cons_self
  | _ => exact writtenProse_eq rfl rfl
/-- The texts of items are those of their lines. -/
theorem prosesWithin_eq (xs : List Datum) (h : ∀ x ∈ xs, x.IsUnmarked) : prosesWithin [] xs =
    if areWritable xs then .ok ((xs.map lines).filterMap joined?)
    else .error .unwritableNumber := by
  cases xs with
  | nil => rfl
  | cons x xs =>
    obtain ⟨hx, hxs⟩ := List.forall_mem_cons.mp h
    rw [prosesWithin, proseWithin_eq x hx, prosesWithin_eq xs hxs, areWritable, List.map_cons,
      List.filterMap_cons]
    cases x.isWritable with
    | false => rfl
    | true =>
      cases areWritable xs with
      | false => rfl
      | true => cases joined? x.lines <;> rfl
end

/-- The datum of a text that there may be. -/
def ofText? : Option String → Datum
  | none => null
  | some s => text s

/-- A line is its own text. -/
theorem prose_ofText? {t : Option String} (h : ∀ s, t = some s → IsLine s) :
    (ofText? t).prose = .ok t := by
  cases t with
  | none => rfl
  | some s =>
    obtain ⟨hne, hends⟩ := h s rfl
    show Except.ok (nonempty? (strip s)) = _
    rw [hends.strip_eq, nonempty?, if_neg (mt String.isEmpty_iff.mp hne)]

/-- As long as all numbers in it can be written, the text of a datum consists of the lines of what is no
list, in order; there is none when there are no lines.  So a text is never empty and has no blanks at its
ends, it is its own text, and other lists around the same data make no difference. -/
theorem prose_flattens {d : Datum} (h : d.IsUnmarked) :
    d.prose = (if d.isWritable then .ok (joined? d.lines) else .error .unwritableNumber) ∧
    (∀ s, d.prose = .ok (some s) → s ≠ "" ∧ IsUnpadded s) ∧
    (∀ t, d.prose = .ok t → (ofText? t).prose = .ok t) ∧
    ∀ e : Datum, e.flattened = d.flattened → e.prose = d.prose := by
  have hprose : d.prose = _ := proseWithin_eq d h
  have hline : ∀ s, d.prose = .ok (some s) → IsLine s := by
    intro s hs
    rw [hprose] at hs
    split at hs
    · rw [Except.ok.injEq, joined?] at hs
      split at hs
      · cases hs
      · next hne =>
        cases hs
        exact isLine_intercalate hne fun _ hmem => isLine_of_mem_lines hmem
    · cases hs
  refine ⟨hprose, hline, fun t ht => prose_ofText? fun s hs => hline s (hs ▸ ht), fun e he => ?_⟩
  have he' : e.IsUnmarked := fun x hx => h x (he ▸ hx)
  have hprose' : e.prose = _ := proseWithin_eq e he'
  rw [hprose', hprose, isWritable_eq_all e, isWritable_eq_all d, lines, lines, he]

/-- Texts, a truth value and a map in lists of different depths, with much that gives no line. -/
def nestedProse : Datum :=
  list [text "  First. ", list [null, list [text "\n", bool false], text "Second.\t"], list [],
    map [(text "k", list [int 1])]]

theorem prose_flattens_nested : nestedProse.IsUnmarked ∧
    nestedProse.prose = (if nestedProse.isWritable then .ok (joined? nestedProse.lines)
      else .error .unwritableNumber) ∧
    (∀ s, nestedProse.prose = .ok (some s) → s ≠ "" ∧ IsUnpadded s) ∧
    (∀ t, nestedProse.prose = .ok t → (ofText? t).prose = .ok t) ∧
    ∀ e : Datum, e.flattened = nestedProse.flattened → e.prose = nestedProse.prose := by
  have h : nestedProse.IsUnmarked := by decide
  exact ⟨h, prose_flattens h⟩

/-- The least number that is too long to be written. -/
def longNumber : Datum := int (Nat.pow 10 Decimal.maxDigits : Nat)

/-- A number that is too long to be written has no text, and so a datum that holds it has none. -/
theorem not_forall_prose_eq :
    ¬ ∀ d : Datum, d.IsUnmarked → d.prose = .ok (joined? d.lines) := by
  intro hall
  have hlong : longNumber.isWritable = false := by
    rw [longNumber, isWritable, Decimal.isWritable, Int.natAbs_natCast, decide_eq_false_iff_not]
    exact Nat.lt_irrefl _
  have hunmarked : longNumber.IsUnmarked := List.forall_mem_singleton.mpr rfl
  have hprose : longNumber.prose = _ := proseWithin_eq longNumber hunmarked
  rw [hlong, if_neg Bool.false_ne_true, hall longNumber hunmarked] at hprose
  cases hprose

end Datum

end ApiDocs
