import Mathlib
import ApiDocs.Proofs.Token.Scan
import ApiDocs.Token.Cursor

/-!
# A cursor follows the tokens

Whatever is called on a cursor, it delivers the tokens of its text one after the other and the end
of input for ever, and what it takes back it delivers once more without going on.

* `Token.tokenAt`: the tokens of some symbols, with the end of input repeated;
* `Cursor.Follows`: where a cursor stands, kept by every call (`Cursor.Follows.next`,
  `Cursor.Follows.unget`) and so by all calls of a script (`Cursor.Follows.run`);
* `Cursor.next_after`: what is delivered next, after any calls.
-/

namespace ApiDocs

open Text

namespace Token

/-- The tokens of `xs`, which begin at `start`, with the end of input repeated. -/
def tokenAt (start : Nat) (xs : List Symbol) (k : Nat) : Token :=
  (scan start xs).getD k (endAt (start + xs.length))

theorem tokenAt_nil (start k : Nat) : tokenAt start [] k = endAt start := by
  rw [tokenAt, scan]
  cases k <;> rfl

/-- The token that is scanned first is the first one, and those behind it are the tokens of what is
left. -/
theorem tokenAt_scanOne (start : Nat) (xs : List Symbol) :
    tokenAt start xs 0 = (scanOne start xs).1 ∧
      ∀ k, tokenAt start xs (k + 1) =
        tokenAt (scanOne start xs).1.stop (scanOne start xs).2 k := by
  induction xs generalizing start with
  | nil =>
    refine ⟨tokenAt_nil start 0, fun k => ?_⟩
    rw [tokenAt_nil]
    exact (tokenAt_nil start k).symm
  | cons x xs ih =>
    rw [scanOne]
    split
    · next hx =>
      have hsame : tokenAt start (x :: xs) = tokenAt (start + 1) xs := by
        funext k
        rw [tokenAt, tokenAt, scan_of_isSkipped hx, List.length_cons, Nat.add_assoc, Nat.add_comm 1]
      rw [hsame]
      exact ih (start + 1)
    · next hx =>
      have hlength := length_firstLexeme_add x xs
      have hend : start + (x :: xs).length =
          start + ((firstLexeme x xs).2.length + 1) + (restAfter x xs).length := by
        rw [List.length_cons]
        omega
      refine ⟨by rw [tokenAt, scan_of_not_isSkipped hx]; rfl, fun k => ?_⟩
      rw [tokenAt, scan_of_not_isSkipped hx, List.getD_cons_succ, hend]
      rfl

end Token

open Token

namespace Cursor

/-- What can be called on a cursor. -/
inductive Call
  | next
  | unget
deriving DecidableEq, Repr

/-- One call. -/
def call (c : Cursor) : Call → Cursor
  | .next => c.next
  | .unget => c.unget

/-- The calls of a script, one after another. -/
def run (c : Cursor) (calls : List Call) : Cursor := calls.foldl call c

/-- What the calls of `next` in a script deliver. -/
def delivered (c : Cursor) : List Call → List Token
  | [] => []
  | .next :: calls => c.next.current :: c.next.delivered calls
  | .unget :: calls => c.unget.delivered calls

/-- How many calls of `next` in a script have no call of `unget` between them and the call of `next`
before them. It is told whether there is such a call in front of the script. -/
def advances : Bool → List Call → Nat
  | _, [] => 0
  | true, .next :: calls => advances false calls
  | false, .next :: calls => advances false calls + 1
  | _, .unget :: calls => advances true calls

/-- What these calls deliver. -/
def advanced (c : Cursor) : Bool → List Call → List Token
  | _, [] => []
  | true, .next :: calls => c.next.advanced false calls
  | false, .next :: calls => c.next.current :: c.next.advanced false calls
  | _, .unget :: calls => c.unget.advanced true calls

/-- Whether a script ends with a call of `unget`, or has none and begins behind one. -/
def endsReturned (returned : Bool) (calls : List Call) : Bool :=
  (calls.getLast?.map (· == .unget)).getD returned

theorem endsReturned_cons (returned : Bool) (first : Call) (calls : List Call) :
    endsReturned returned (first :: calls) = endsReturned (first == .unget) calls := by
  rw [endsReturned, endsReturned, List.getLast?_cons]
  cases calls.getLast? <;> rfl

theorem endsReturned_false_iff (calls : List Call) :
    endsReturned false calls = true ↔ calls.getLast? = some .unget := by
  rw [endsReturned]
  cases calls.getLast? with
  | none => decide
  | some last => cases last <;> decide

variable {c : Cursor} {token : Nat → Token} {n : Nat} {last : Token} {returned : Bool}

/-- A cursor that has taken `n` of some tokens, delivered `last`, and maybe took it back. -/
structure Follows (c : Cursor) (token : Nat → Token) (n : Nat) (last : Token) (returned : Bool) :
    Prop where
  ahead : ∀ k, tokenAt c.position c.ahead k = token (n + k)
  current : c.current = last
  isReturned : c.isReturned = returned

theorem follows_ofText (text : String) :
    (ofText text).Follows (tokenAt 0 (symbols text.toList)) 0 (endAt 0) false where
  ahead k := by rw [Nat.zero_add]; rfl
  current := rfl
  isReturned := rfl

namespace Follows

theorem unget (h : c.Follows token n last returned) : c.unget.Follows token n last true :=
  ⟨h.ahead, h.current, rfl⟩

/-- What was taken back is delivered once more. -/
theorem next_of_returned (h : c.Follows token n last true) : c.next.Follows token n last false := by
  rw [next, if_pos h.isReturned]
  exact ⟨h.ahead, h.current, rfl⟩

/-- Otherwise the cursor goes on. -/
theorem next (h : c.Follows token n last false) :
    c.next.Follows token (n + 1) (token n) false := by
  have hone := tokenAt_scanOne c.position c.ahead
  rw [Cursor.next, if_neg (by rw [h.isReturned]; exact nofun)]
  refine ⟨fun k => ?_, ?_, rfl⟩
  · rw [← hone.2, h.ahead, Nat.add_assoc, Nat.add_comm 1]
  · exact hone.1.symm.trans (h.ahead 0)

/-- All calls of a script, from where the cursor stands. -/
theorem run (h : c.Follows token n last returned) (calls : List Call) :
    (c.run calls).Follows token (n + advances returned calls)
        ((c.delivered calls).getLast?.getD last) (endsReturned returned calls) ∧
      c.advanced returned calls = (List.range' n (advances returned calls)).map token := by
  induction calls generalizing c n last returned with
  | nil => exact ⟨h, rfl⟩
  | cons first calls ih =>
    rw [endsReturned_cons]
    cases first with
    | unget =>
      have hrest := ih h.unget
      cases returned <;> exact hrest
    | next =>
      rw [delivered, List.getLast?_cons, Option.getD_some]
      cases returned with
      | true =>
        have hnext := h.next_of_returned
        have hrest := ih hnext
        rw [← hnext.current] at hrest
        exact hrest
      | false =>
        have hnext := h.next
        obtain ⟨hrest, hadvanced⟩ := ih hnext
        rw [← hnext.current] at hrest
        rw [advances, advanced, hadvanced, List.range'_succ, List.map_cons, ← hnext.current]
        refine ⟨?_, rfl⟩
        rw [Nat.add_comm _ 1, ← Nat.add_assoc]
        exact hrest

end Follows

/-- After any calls, a call of `next` with no call of `unget` between it and the call of `next`
before it delivers the token behind those that such calls have delivered, with the end of input
repeated; any other call of `next` delivers what the one before it did, or the end of an empty text
if there was none.  So the calls of the first kind deliver all tokens one after the other from the
first on. -/
theorem next_after (text : String) (before : List Call) :
    (before.getLast? ≠ some .unget → ((ofText text).run before).next.current =
      ((tokenize text)[advances false before]?).getD (endAt (symbols text.toList).length)) ∧
    (before.getLast? = some .unget → ((ofText text).run before).next.current =
      ((ofText text).delivered before).getLast?.getD (endAt 0)) ∧
    (ofText text).advanced false before = (List.range (advances false before)).map fun k =>
      (tokenize text)[k]?.getD (endAt (symbols text.toList).length) := by
  obtain ⟨hrun, hadvanced⟩ := (follows_ofText text).run before
  have htoken : tokenAt 0 (symbols text.toList) = fun k =>
      (tokenize text)[k]?.getD (endAt (symbols text.toList).length) := by
    funext k
    rw [tokenAt, List.getD_eq_getElem?_getD, Nat.zero_add]
    rfl
  rw [htoken] at hrun hadvanced
  rw [Nat.zero_add] at hrun
  refine ⟨fun hlast => ?_, fun hlast => ?_, ?_⟩
  · have hgoes : endsReturned false before = false := by
      rw [← Bool.not_eq_true, endsReturned_false_iff]
      exact hlast
    rw [hgoes] at hrun
    exact hrun.next.current
  · rw [(endsReturned_false_iff before).mpr hlast] at hrun
    exact hrun.next_of_returned.current
  · rw [hadvanced, List.range_eq_range']

/-- Taken back before anything is delivered, then taken back twice, then read beyond the end. -/
theorem next_after_of_taken_back :
    ((ofText "A.").run [.unget, .next, .next, .unget, .unget]).next.current =
      ⟨.name, 0, [.char 'A']⟩ ∧
    ((ofText "A.").run [.unget, .next, .next, .unget, .unget, .next]).next.current =
      ⟨.period, 1, [.char '.']⟩ ∧
    ((ofText "A.").run [.next, .next, .next, .next]).next.current = endAt 2 := by
  refine ⟨?_, ?_, ?_⟩
  · rw [(next_after "A." [.unget, .next, .next, .unget, .unget]).2.1 rfl]
    rfl
  · rw [(next_after "A." [.unget, .next, .next, .unget, .unget, .next]).1 (by decide)]
    cbv
  · rw [(next_after "A." [.next, .next, .next, .next]).1 (by decide)]
    cbv

end Cursor

end ApiDocs
