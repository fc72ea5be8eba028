import ApiDocs.Yaml.Reader

/-!
# Reading a document step by step

* `tokens_of_runWithin`: the tokens of a document that is cut within some steps;
* `node_scalar`: a scalar is a node.
-/

namespace ApiDocs.Yaml

/-! ## Tokens -/

namespace Scan

/-- All tokens from a place on, if there are no more than some steps to take. -/
def runWithin : Nat → Scan → Option (List Token)
  | 0, _ => none
  | n + 1, s =>
    match s.step with
    | .error fault => some (s.settled ++ [.broken fault])
    | .ok next =>
      match next.tokens with
      | .streamEnd :: _ => some next.tokens.reverse
      | _ => runWithin n next

theorem run_of_runWithin {n : Nat} {s : Scan} {ts : List Token} (h : s.runWithin n = some ts) :
    s.run = ts := by
  induction n generalizing s with
  | zero => cases h
  | succ n ih =>
    rw [runWithin] at h
    rw [run]
    split
    · next fault hstep =>
      rw [hstep] at h
      cases h
      rfl
    · next next hstep =>
      rw [hstep] at h
      dsimp only at h
      split at h
      · next tokens htokens =>
        rw [dif_pos (by rw [isFinished, htokens]; rfl)]
        cases h
        rfl
      · next hne =>
        rw [dif_neg, ih h]
        rw [isFinished, beq_iff_eq, List.head?_eq_some_iff]
        rintro ⟨rest, hrest⟩
        exact hne rest hrest

/-- The place where a text begins. -/
def start (text : String) : Scan := { rest := spotsFrom 0 0 0 (unifyLineEnds text.toList) }

end Scan

theorem tokens_of_runWithin {text : String} {n : Nat} {ts : List Token}
    (hallowed : (Text.symbols text.toList).all isAllowed = true)
    (hmark : (peek (Scan.start text).rest == byteOrderMark) = false)
    (h : (Scan.start text).runWithin n = some ts) : tokens text = ts := by
  rw [tokens, if_pos hallowed]
  show Scan.run { rest := if peek (Scan.start text).rest == byteOrderMark then _ else _ } = ts
  rw [hmark, if_neg Bool.false_ne_true]
  exact Scan.run_of_runWithin h

/-! ## Nodes -/

theorem bind_ok {ε α β : Type} (a : α) (f : α → Except ε β) : (.ok a >>= f) = f a := rfl

theorem node_scalar (p : Place) (draft : Draft) (text : String) (isPlain : Bool)
    (rest : List Token) : node p draft (.scalar text isPlain :: rest) =
      .ok ⟨⟨draft.next, { draft with
        graph := draft.graph.push (.scalar (Properties.scalarKind {} text isPlain) text) }, rest⟩,
        Nat.lt_succ_self _⟩ := by
  simp only [node, content, Draft.begin]
  rfl

/-- A block with one key, of which the value is a scalar. -/
theorem ofTokens_scalarEntry (key value : String) :
    Graph.ofTokens [.mapStart, .key, .scalar key true, .value, .scalar value true, .blockEnd,
        .streamEnd] =
      .ok ⟨#[.map .map [(1, 2)], .scalar (Properties.scalarKind {} key true) key,
        .scalar (Properties.scalarKind {} value true) value]⟩ := by
  simp [Graph.ofTokens, firstDocument, node, content, blockEntries, blockValue, blockEntryValue,
    endsValue, node_scalar, bind_ok, expect, checkEnd, Draft.begin, Draft.next, Draft.complete,
    Place.entryPart, Properties.kind, Graph.push, Graph.set, Graph.size]

/-- A block with one key, of which the value is a list of one scalar between brackets. -/
theorem ofTokens_singletonEntry (key item : String) :
    Graph.ofTokens [.mapStart, .key, .scalar key true, .value, .flowListStart, .scalar item true,
        .flowListEnd, .blockEnd, .streamEnd] =
      .ok ⟨#[.map .map [(1, 2)], .scalar (Properties.scalarKind {} key true) key, .list .list [3],
        .scalar (Properties.scalarKind {} item true) item]⟩ := by
  simp [Graph.ofTokens, firstDocument, node, content, blockEntries, blockValue, blockEntryValue,
    endsValue, flowItems, flowItem, node_scalar, bind_ok, expect, checkEnd, Draft.begin, Draft.next,
    Draft.complete, Place.entryPart, Properties.kind, Graph.push, Graph.set, Graph.size]

/-- A block with one key, of which the value is a list by hyphens with one block.  That one has two keys
with scalars, and one with a block of one scalar. -/
theorem ofTokens_nestedEntry (key first value second value' third inner last : String) :
    Graph.ofTokens [.mapStart, .key, .scalar key true, .value, .entry, .mapStart, .key,
        .scalar first true, .value, .scalar value true, .key, .scalar second true, .value,
        .scalar value' true, .key, .scalar third true, .value, .mapStart, .key, .scalar inner true,
        .value, .scalar last true, .blockEnd, .blockEnd, .blockEnd, .streamEnd] =
      .ok ⟨#[.map .map [(1, 2)], .scalar (Properties.scalarKind {} key true) key, .list .list [3],
        .map .map [(4, 5), (6, 7), (8, 9)], .scalar (Properties.scalarKind {} first true) first,
        .scalar (Properties.scalarKind {} value true) value,
        .scalar (Properties.scalarKind {} second true) second,
        .scalar (Properties.scalarKind {} value' true) value',
        .scalar (Properties.scalarKind {} third true) third, .map .map [(10, 11)],
        .scalar (Properties.scalarKind {} inner true) inner,
        .scalar (Properties.scalarKind {} last true) last]⟩ := by
  simp [Graph.ofTokens, firstDocument, node, content, blockEntries, blockValue, blockEntryValue,
    indentlessItems, endsValue, node_scalar, bind_ok, expect, checkEnd, Draft.begin, Draft.next,
    Draft.complete, Place.entryPart, Place.blockPart, Properties.kind, Graph.push, Graph.set,
    Graph.size]

theorem ofYaml_of_tokens {text : String} {ts : List Token} {g : Graph} (htokens : tokens text = ts)
    (hgraph : Graph.ofTokens ts = .ok g) : Datum.ofYaml text = g.datum := by
  rw [Datum.ofYaml, Graph.ofText, htokens, hgraph]
  rfl

end ApiDocs.Yaml
