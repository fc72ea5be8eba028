import ApiDocs.Text.Letter
import Mathlib.Data.List.Basic

/-!
# Texts laid end to end

Where several texts are laid end to end, each of them is known from the whole if the character behind
it can never be its own: a word ends at the first character that is not of a word, and things with a
separator in between end at the separator.

* `ToldApart`: the text of a thing, in front of what cannot go on with it, settles the thing and what
  stands behind;
* `toldApart_of_forall`, `toldApart_intercalate`: runs of characters, and things with separators.
-/

namespace ApiDocs

open Text

/-- A text of letters, underscores and digits, not empty. -/
def IsWord (s : String) : Prop := s ≠ "" ∧ ∀ c ∈ s.toList, isNameRest c = true

/-- A text that does not begin with a character of a kind. -/
def Stops (goesOn : Char → Bool) (s : List Char) : Prop := ∀ c ∈ s.head?, goesOn c = false

/-- Two things of which the texts, in front of what does not go on with them, cannot be mistaken. -/
def ToldApart {α β : Type} (code : α → List Char) (meaning : α → β) (goesOn : Char → Bool)
    (a b : α) : Prop :=
  ∀ s s', Stops goesOn s → Stops goesOn s' → code a ++ s = code b ++ s' →
    meaning a = meaning b ∧ s = s'

section
variable {goesOn : Char → Bool} {c : Char} {s : List Char}

theorem stops_cons : Stops goesOn (c :: s) ↔ goesOn c = false := by
  simp [Stops]

theorem Stops.mono {goesOn' : Char → Bool} (h : Stops goesOn s)
    (hle : ∀ c, goesOn' c = true → goesOn c = true) : Stops goesOn' s := by
  intro c hc
  have hstop := h c hc
  rw [← Bool.not_eq_true] at hstop ⊢
  exact fun hgoes => hstop (hle c hgoes)

theorem takeWhile_append_of_stops {xs : List Char} (hxs : ∀ c ∈ xs, goesOn c = true)
    (hs : Stops goesOn s) : (xs ++ s).takeWhile goesOn = xs := by
  rw [List.takeWhile_append_of_pos hxs]
  cases s with
  | nil => exact List.append_nil xs
  | cons c s =>
    rw [List.takeWhile_cons_of_neg (by rw [stops_cons.mp hs]; exact nofun), List.append_nil]

/-- Runs of characters of a kind end where the kind ends. -/
theorem toldApart_of_forall {xs ys : List Char} (hxs : ∀ c ∈ xs, goesOn c = true)
    (hys : ∀ c ∈ ys, goesOn c = true) : ToldApart id id goesOn xs ys := by
  intro s s' hs hs' h
  have hrun : xs = ys := by
    rw [← takeWhile_append_of_stops hxs hs, ← takeWhile_append_of_stops hys hs']
    exact congrArg _ h
  subst hrun
  exact ⟨rfl, List.append_cancel_left h⟩

end

section
variable {α β : Type} {code : α → List Char} {meaning : α → β} {goesOn : Char → Bool}

/-- Things laid end to end with a separator in between are told apart when each of them is and the
separator does not go on with it. -/
theorem toldApart_intercalate {c : Char} (sep : List Char) (hc : goesOn c = false) {as bs : List α}
    (has : as ≠ []) (hbs : bs ≠ []) (h : ∀ a ∈ as, ∀ b ∈ bs, ToldApart code meaning goesOn a b) :
    ToldApart (fun as => (c :: sep).intercalate (as.map code)) (List.map meaning)
      (fun d => d == c || goesOn d) as bs := by
  intro s s' hs hs' heq
  have hgoes : ∀ {r}, Stops (fun d => d == c || goesOn d) r → Stops goesOn r := fun hr =>
    hr.mono fun d hd => by rw [hd, Bool.or_true]
  have hseparated : ∀ {r}, ¬ Stops (fun d => d == c || goesOn d) (c :: r) := fun hr => by
    have hstop := stops_cons.mp hr
    rw [beq_self_eq_true, Bool.true_or] at hstop
    cases hstop
  induction as generalizing bs with
  | nil => exact absurd rfl has
  | cons a as ih =>
    cases bs with
    | nil => exact absurd rfl hbs
    | cons b bs =>
      have hhead := h a List.mem_cons_self b List.mem_cons_self
      -- What stands behind the heads is the given rest or a separator, and the two do not agree.
      cases as with
      | nil =>
        cases bs with
        | nil =>
          simp only [List.map_cons, List.map_nil, List.intercalate_singleton] at heq
          obtain ⟨hab, hrest⟩ := hhead s s' (hgoes hs) (hgoes hs') heq
          exact ⟨congrArg (fun x => [x]) hab, hrest⟩
        | cons b' bs =>
          simp only [List.map_cons, List.map_nil, List.intercalate_singleton,
            List.intercalate_cons_cons, List.append_assoc, List.cons_append] at heq
          obtain ⟨-, rfl⟩ := hhead s _ (hgoes hs) (stops_cons.mpr hc) heq
          exact absurd hs hseparated
      | cons a' as =>
        cases bs with
        | nil =>
          simp only [List.map_cons, List.map_nil, List.intercalate_singleton,
            List.intercalate_cons_cons, List.append_assoc, List.cons_append] at heq
          obtain ⟨-, rfl⟩ := hhead _ s' (stops_cons.mpr hc) (hgoes hs') heq
          exact absurd hs' hseparated
        | cons b' bs =>
          simp only [List.map_cons, List.intercalate_cons_cons, List.append_assoc,
            List.cons_append] at heq
          obtain ⟨hab, hrest⟩ := hhead _ _ (stops_cons.mpr hc) (stops_cons.mpr hc) heq
          obtain ⟨hmore, hrest⟩ := ih (List.cons_ne_nil _ _) (List.cons_ne_nil _ _)
            (fun x hx y hy => h x (List.mem_cons_of_mem _ hx) y (List.mem_cons_of_mem _ hy))
            (List.append_cancel_left (List.cons.inj hrest).2)
          exact ⟨List.cons_eq_cons.mpr ⟨hab, hmore⟩, hrest⟩

end

end ApiDocs
