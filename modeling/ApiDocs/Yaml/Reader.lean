import ApiDocs.Yaml.Scan
import ApiDocs.Yaml.Whole

/-!
# Reading documents

A document is one node. Blocks are lists by hyphens and maps by keys; between brackets stand the
flow forms of both, of which JSON is a part. A value that is left out is null. In front of a node may stand
its name and its tag. A name stands for the node from its beginning on, and for itself within the node.

* `Graph.ofTokens`: the graph of the nodes that some tokens write, or what is wrong with their order;
* `Graph.ofText`: the graph that a text writes;
* `Datum.ofYaml`: the datum that a text writes.
-/

namespace ApiDocs.Yaml

/-! ## Names and tags -/

/-- What the handles of tags stand for. -/
abbrev Handles := List (String × String)

/-- What the two handles stand for that need not be given. -/
def Handles.default : Handles := [("!", "!"), ("!!", Kind.standardBeginning)]

/-- The nodes that have begun, and the numbers of those that have names. -/
structure Draft where
  graph : Graph := {}
  names : List (String × Nat) := []

namespace Draft

/-- The number of the node that begins next. -/
def next (d : Draft) : Nat := d.graph.size

/-- Begins a node, of which what is not written yet is left out. No two nodes have one name. -/
def begin (d : Draft) (name : Option String) (n : Node) : Except ScanFault Draft :=
  match name with
  | none => .ok { d with graph := d.graph.push n }
  | some name =>
    if (d.names.lookup name).isSome then .error .malformed
    else .ok { graph := d.graph.push n, names := (name, d.next) :: d.names }

/-- Completes the node with a number. -/
def complete (d : Draft) (number : Nat) (n : Node) : Draft := { d with graph := d.graph.set number n }

end Draft

/-- The name and the tag in front of a node. -/
structure Properties where
  name : Option String := none
  tag : Option String := none

/-- A tag in full. -/
def Tag.inFull (handles : Handles) (tag : Tag) : Except ScanFault String :=
  match tag.handle with
  | none => .ok tag.suffix
  | some handle => ScanFault.require ((handles.lookup handle).map (· ++ tag.suffix))

namespace Properties

/-- The kind that a tag gives a node. A tag that is an exclamation mark leaves it to what is written. -/
def kind (p : Properties) (written : Kind) : Kind :=
  match p.tag with
  | none | some "!" => written
  | some tag => Kind.ofTag tag

/-- The kind of a scalar. -/
def scalarKind (p : Properties) (text : String) (isPlain : Bool) : Kind :=
  p.kind (if isPlain || p.tag.isSome then Kind.ofSpelling text else .text)

end Properties

/-! ## Nodes -/

/-- What has been read, nodes by their numbers, the nodes that have begun by then, and the tokens left. -/
structure Read (α : Type) where
  value : α
  draft : Draft
  left : List Token

/-- What has been read, with fewer tokens left than there were. -/
abbrev Taken (α : Type) (ts : List Token) := { r : Read α // r.left.length < ts.length }

/-- What has been read, if anything, with no more tokens left than there were. -/
abbrev Passed (α : Type) (ts : List Token) := { r : Read α // r.left.length ≤ ts.length }

/-- A value that is left out, before some tokens. -/
def absent (draft : Draft) {ts : List Token} : Passed Nat ts :=
  let number := draft.next
  ⟨⟨number, { draft with graph := draft.graph.push .empty }, ts⟩, Nat.le_refl _⟩

/-- Takes one token. -/
def expect (t : Token) : (ts : List Token) → Except ScanFault { left : List Token // left.length < ts.length }
  | [] => .error .malformed
  | u :: rest => if u = t then .ok ⟨rest, by simp⟩ else .error (faultAt (u :: rest))

/-- What may stand in the place of a value left out. -/
def endsValue (ts : List Token) (marks : List Token) : Bool :=
  match ts with
  | [] => true
  | t :: _ => t ∈ marks

/-- Where a node is read. -/
structure Place where
  handles : Handles
  /-- Whether blocks may stand there. -/
  inBlock : Bool := true
  /-- Whether a list may stand there at the column of its key. -/
  indentless : Bool := false

namespace Place

/-- The place of the parts of a node in a block. -/
def blockPart (p : Place) : Place := { p with inBlock := true, indentless := false }

/-- The place of a key or value in a block. -/
def entryPart (p : Place) : Place := { p with inBlock := true, indentless := true }

/-- The place of the parts of a node between brackets. -/
def flowPart (p : Place) : Place := { p with inBlock := false, indentless := false }

/-- Whether a node begins with some tokens, its name and tag apart. -/
def begins (p : Place) : List Token → Bool
  | .scalar .. :: _ | .flowListStart :: _ | .flowMapStart :: _ => true
  | .listStart :: _ | .mapStart :: _ => p.inBlock
  | .entry :: _ => p.indentless
  | _ => false

end Place

mutual
/-- A node with its name and tag, or a name for one. -/
def node (p : Place) (draft : Draft) (ts : List Token) : Except ScanFault (Taken Nat ts) :=
  match ts with
  | .alias name :: rest => do
    let n ← ScanFault.require (draft.names.lookup name)
    .ok ⟨⟨n, draft, rest⟩, by simp⟩
  | .anchor name :: .tag tag :: rest => do
    let tag ← tag.inFull p.handles
    let ⟨r, h⟩ ← withProperties p ⟨some name, some tag⟩ draft rest
    .ok ⟨r, by simp only [List.length_cons]; omega⟩
  | .anchor name :: rest => do
    let ⟨r, h⟩ ← withProperties p ⟨some name, none⟩ draft rest
    .ok ⟨r, by simp only [List.length_cons]; omega⟩
  | .tag tag :: .anchor name :: rest => do
    let tag ← tag.inFull p.handles
    let ⟨r, h⟩ ← withProperties p ⟨some name, some tag⟩ draft rest
    .ok ⟨r, by simp only [List.length_cons]; omega⟩
  | .tag _ :: .broken fault :: _ => .error fault
  | .tag tag :: rest => do
    let tag ← tag.inFull p.handles
    let ⟨r, h⟩ ← withProperties p ⟨none, some tag⟩ draft rest
    .ok ⟨r, by simp only [List.length_cons]; omega⟩
  | ts => content p {} draft ts
termination_by (ts.length, 2)
decreasing_by
  all_goals first
    | (apply Prod.Lex.left; simp only [List.length_cons]; omega)
    | (apply Prod.Lex.right; decide)

/-- A node behind its name and tag, which is an empty scalar when nothing is there. -/
def withProperties (p : Place) (properties : Properties) (draft : Draft) (ts : List Token) :
    Except ScanFault (Passed Nat ts) :=
  if p.begins ts then do
    let ⟨r, h⟩ ← content p properties draft ts
    .ok ⟨r, Nat.le_of_lt h⟩
  else
    match ts with
    | .broken fault :: _ => .error fault
    | ts => do
      let number := draft.next
      let after ← draft.begin properties.name (.scalar (properties.scalarKind "" true) "")
      .ok ⟨⟨number, after, ts⟩, Nat.le_refl _⟩
termination_by (ts.length, 1)

/-- A node, of which the name and the tag are given. In a block of keys a list may stand at the column of its
key. -/
def content (p : Place) (properties : Properties) (draft : Draft) (ts : List Token) :
    Except ScanFault (Taken Nat ts) :=
  let number := draft.next
  match ts with
  | .scalar text isPlain :: rest => do
    let after ← draft.begin properties.name (.scalar (properties.scalarKind text isPlain) text)
    .ok ⟨⟨number, after, rest⟩, by simp⟩
  | .flowListStart :: rest => do
    let kind := properties.kind .list
    let begun ← draft.begin properties.name (.list kind [])
    let ⟨⟨items, after, left⟩, h⟩ ← flowItems p.flowPart true begun rest
    .ok ⟨⟨number, after.complete number (.list kind items), left⟩, by simp at h ⊢; omega⟩
  | .flowMapStart :: rest => do
    let kind := properties.kind .map
    let begun ← draft.begin properties.name (.map kind [])
    let ⟨⟨entries, after, left⟩, h⟩ ← flowEntries p.flowPart true begun rest
    .ok ⟨⟨number, after.complete number (.map kind entries), left⟩, by simp at h ⊢; omega⟩
  | .listStart :: rest =>
    if p.inBlock then do
      let kind := properties.kind .list
      let begun ← draft.begin properties.name (.list kind [])
      let ⟨⟨items, after, rest'⟩, h⟩ ← blockItems p.blockPart begun rest
      let ⟨left, h'⟩ ← expect .blockEnd rest'
      .ok ⟨⟨number, after.complete number (.list kind items), left⟩, by simp at h h' ⊢; omega⟩
    else .error .malformed
  | .mapStart :: rest =>
    if p.inBlock then do
      let kind := properties.kind .map
      let begun ← draft.begin properties.name (.map kind [])
      let ⟨⟨entries, after, rest'⟩, h⟩ ← blockEntries p.entryPart begun rest
      let ⟨left, h'⟩ ← expect .blockEnd rest'
      .ok ⟨⟨number, after.complete number (.map kind entries), left⟩, by simp at h h' ⊢; omega⟩
    else .error .malformed
  | .entry :: rest =>
    if p.indentless then do
      let kind := properties.kind .list
      let begun ← draft.begin properties.name (.list kind [])
      let ⟨⟨first, draft, rest'⟩, h⟩ ←
        blockValue p.blockPart [.entry, .key, .value, .blockEnd] begun rest
      let ⟨⟨items, after, left⟩, h'⟩ ← indentlessItems p.blockPart draft rest'
      .ok ⟨⟨number, after.complete number (.list kind (first :: items)), left⟩, by
        simp at h h' ⊢; omega⟩
    else .error .malformed
  | ts => .error (faultAt ts)
termination_by (ts.length, 0)
decreasing_by all_goals (apply Prod.Lex.left; simp_all; try omega)

/-- A value in a block, or null before one of some tokens. -/
def blockValue (p : Place) (marks : List Token) (draft : Draft) (ts : List Token) :
    Except ScanFault (Passed Nat ts) :=
  if endsValue ts marks then .ok (absent draft)
  else do
    let ⟨r, h⟩ ← node p draft ts
    .ok ⟨r, Nat.le_of_lt h⟩
termination_by (ts.length, 3)

/-- A value between brackets, or null before one of some tokens. -/
def flowValue (p : Place) (marks : List Token) (draft : Draft) (ts : List Token) :
    Except ScanFault (Passed Nat ts) :=
  if endsValue ts marks then .ok (absent draft)
  else do
    let ⟨r, h⟩ ← node p draft ts
    .ok ⟨r, Nat.le_of_lt h⟩
termination_by (ts.length, 3)

/-- The items of a block. -/
def blockItems (p : Place) (draft : Draft) (ts : List Token) :
    Except ScanFault (Passed (List Nat) ts) :=
  match ts with
  | .entry :: rest => do
    let ⟨⟨first, draft, rest'⟩, h⟩ ← blockValue p [.entry, .blockEnd] draft rest
    let ⟨⟨items, draft, left⟩, h'⟩ ← blockItems p draft rest'
    .ok ⟨⟨first :: items, draft, left⟩, by simp at h h' ⊢; omega⟩
  | ts => .ok ⟨⟨[], draft, ts⟩, by simp⟩
termination_by (ts.length, 4)
decreasing_by all_goals (apply Prod.Lex.left; simp_all; try omega)

/-- The items of a list at the column of its key. -/
def indentlessItems (p : Place) (draft : Draft) (ts : List Token) :
    Except ScanFault (Passed (List Nat) ts) :=
  match ts with
  | .entry :: rest => do
    let ⟨⟨first, draft, rest'⟩, h⟩ ← blockValue p [.entry, .key, .value, .blockEnd] draft rest
    let ⟨⟨items, draft, left⟩, h'⟩ ← indentlessItems p draft rest'
    .ok ⟨⟨first :: items, draft, left⟩, by simp at h h' ⊢; omega⟩
  | ts => .ok ⟨⟨[], draft, ts⟩, by simp⟩
termination_by (ts.length, 4)
decreasing_by all_goals (apply Prod.Lex.left; simp_all; try omega)

/-- The value behind a colon in a block, or null without one. -/
def blockEntryValue (p : Place) (draft : Draft) (ts : List Token) : Except ScanFault (Passed Nat ts) :=
  match ts with
  | .value :: rest => do
    let ⟨⟨n, draft, left⟩, h⟩ ← blockValue p [.key, .value, .blockEnd] draft rest
    .ok ⟨⟨n, draft, left⟩, by simp at h ⊢; omega⟩
  | ts => .ok (absent draft)
termination_by (ts.length, 4)
decreasing_by all_goals (apply Prod.Lex.left; simp_all; try omega)

/-- The entries of a block, each with a key. -/
def blockEntries (p : Place) (draft : Draft) (ts : List Token) :
    Except ScanFault (Passed (List (Nat × Nat)) ts) :=
  match ts with
  | .key :: rest => do
    let ⟨⟨k, draft, rest'⟩, h⟩ ← blockValue p [.key, .value, .blockEnd] draft rest
    let ⟨⟨v, draft, rest''⟩, h'⟩ ← blockEntryValue p draft rest'
    let ⟨⟨entries, draft, left⟩, h''⟩ ← blockEntries p draft rest''
    .ok ⟨⟨(k, v) :: entries, draft, left⟩, by simp at h h' h'' ⊢; omega⟩
  | ts => .ok ⟨⟨[], draft, ts⟩, by simp⟩
termination_by (ts.length, 5)
decreasing_by all_goals (apply Prod.Lex.left; simp_all; try omega)

/-- The value behind a colon between brackets, or null without one. -/
def flowEntryValue (p : Place) (closing : Token) (draft : Draft) (ts : List Token) :
    Except ScanFault (Passed Nat ts) :=
  match ts with
  | .value :: rest => do
    let ⟨⟨n, draft, left⟩, h⟩ ← flowValue p [.flowEntry, closing] draft rest
    .ok ⟨⟨n, draft, left⟩, by simp at h ⊢; omega⟩
  | ts => .ok (absent draft)
termination_by (ts.length, 4)
decreasing_by all_goals (apply Prod.Lex.left; simp_all; try omega)

/-- An item between square brackets: a value, or a single entry as a map of its own. -/
def flowItem (p : Place) (draft : Draft) (ts : List Token) : Except ScanFault (Taken Nat ts) :=
  match ts with
  | .key :: rest => do
    let number := draft.next
    let begun ← draft.begin none (.map .map [])
    let ⟨⟨k, draft, rest'⟩, h⟩ ← flowValue p.flowPart [.value, .flowEntry, .flowListEnd] begun rest
    let ⟨⟨v, after, left⟩, h'⟩ ← flowEntryValue p.flowPart .flowListEnd draft rest'
    .ok ⟨⟨number, after.complete number (.map .map [(k, v)]), left⟩, by simp at h h' ⊢; omega⟩
  | ts => node p draft ts
termination_by (ts.length, 5)
decreasing_by
  · apply Prod.Lex.left; simp_all
  · apply Prod.Lex.left; simp only [List.length_cons] at *; omega
  · apply Prod.Lex.right; simp

/-- The items up to a closing square bracket. -/
def flowItems (p : Place) (isFirst : Bool) (draft : Draft) (ts : List Token) :
    Except ScanFault (Taken (List Nat) ts) :=
  match ts with
  | [] => .error .malformed
  | .flowListEnd :: rest => .ok ⟨⟨[], draft, rest⟩, by simp⟩
  | .flowEntry :: rest =>
    if isFirst then .error .malformed
    else
      match rest with
      | .flowListEnd :: left => .ok ⟨⟨[], draft, left⟩, by simp only [List.length_cons]; omega⟩
      | rest => do
        let ⟨⟨n, draft, rest'⟩, h⟩ ← flowItem p draft rest
        let ⟨⟨items, draft, left⟩, h'⟩ ← flowItems p false draft rest'
        .ok ⟨⟨n :: items, draft, left⟩, by simp at h h' ⊢; omega⟩
  | t :: rest =>
    if isFirst then do
      let ⟨⟨n, draft, rest'⟩, h⟩ ← flowItem p draft (t :: rest)
      let ⟨⟨items, draft, left⟩, h'⟩ ← flowItems p false draft rest'
      .ok ⟨⟨n :: items, draft, left⟩, by simp at h h' ⊢; omega⟩
    else .error (faultAt (t :: rest))
termination_by (ts.length, 6)
decreasing_by
  · apply Prod.Lex.left; simp_all
  · apply Prod.Lex.left; simp only [List.length_cons] at *; omega
  · apply Prod.Lex.right; simp
  · apply Prod.Lex.left; simp_all

/-- An entry between braces. A value alone is a key. -/
def flowPair (p : Place) (draft : Draft) (ts : List Token) : Except ScanFault (Taken (Nat × Nat) ts) :=
  match ts with
  | .key :: rest => do
    let ⟨⟨k, draft, rest'⟩, h⟩ ← flowValue p [.value, .flowEntry, .flowMapEnd] draft rest
    let ⟨⟨v, draft, left⟩, h'⟩ ← flowEntryValue p .flowMapEnd draft rest'
    .ok ⟨⟨(k, v), draft, left⟩, by simp at h h' ⊢; omega⟩
  | ts => do
    let ⟨⟨k, draft', left⟩, h⟩ ← node p draft ts
    let v : Passed Nat left := absent draft'
    .ok ⟨⟨(k, v.val.value), v.val.draft, left⟩, h⟩
termination_by (ts.length, 5)
decreasing_by
  · apply Prod.Lex.left; simp_all
  · apply Prod.Lex.left; simp only [List.length_cons] at *; omega
  · apply Prod.Lex.right; simp

/-- The entries up to a closing brace. -/
def flowEntries (p : Place) (isFirst : Bool) (draft : Draft) (ts : List Token) :
    Except ScanFault (Taken (List (Nat × Nat)) ts) :=
  match ts with
  | [] => .error .malformed
  | .flowMapEnd :: rest => .ok ⟨⟨[], draft, rest⟩, by simp⟩
  | .flowEntry :: rest =>
    if isFirst then .error .malformed
    else
      match rest with
      | .flowMapEnd :: left => .ok ⟨⟨[], draft, left⟩, by simp only [List.length_cons]; omega⟩
      | rest => do
        let ⟨⟨e, draft, rest'⟩, h⟩ ← flowPair p draft rest
        let ⟨⟨entries, draft, left⟩, h'⟩ ← flowEntries p false draft rest'
        .ok ⟨⟨e :: entries, draft, left⟩, by simp at h h' ⊢; omega⟩
  | t :: rest =>
    if isFirst then do
      let ⟨⟨e, draft, rest'⟩, h⟩ ← flowPair p draft (t :: rest)
      let ⟨⟨entries, draft, left⟩, h'⟩ ← flowEntries p false draft rest'
      .ok ⟨⟨e :: entries, draft, left⟩, by simp at h h' ⊢; omega⟩
    else .error (faultAt (t :: rest))
termination_by (ts.length, 6)
decreasing_by
  · apply Prod.Lex.left; simp_all
  · apply Prod.Lex.left; simp only [List.length_cons] at *; omega
  · apply Prod.Lex.right; simp
  · apply Prod.Lex.left; simp_all
end

/-! ## Documents -/

/-- What the directives that stand next say of handles, and the tokens behind them. The version and each
handle are given once, and only the first version is known. -/
def directives (hasVersion : Bool) (handles : Handles) :
    List Token → Except ScanFault (Handles × List Token)
  | .directive (.version major) :: rest =>
    if hasVersion || major != 1 then .error .malformed else directives true handles rest
  | .directive (.handle name beginning) :: rest =>
    if (handles.lookup name).isSome then .error .malformed
    else directives hasVersion ((name, beginning) :: handles) rest
  | .directive .other :: rest => directives hasVersion handles rest
  | ts => .ok (handles ++ Handles.default, ts)

/-- Whether a document is over, before some tokens. -/
def endsDocument : List Token → Bool
  | .directive _ :: _ => true
  | ts => endsValue ts [.documentStart, .documentEnd, .streamEnd]

/-- The graph of a document in which a value is left out. -/
def Graph.empty : Graph := ⟨#[.empty]⟩

/-- The graph of the document behind the mark that begins it, where the node may be left out. -/
def explicitDocument (ts : List Token) : Except ScanFault (Graph × List Token) := do
  match ← directives false [] ts with
  | (handles, .documentStart :: rest) =>
    if endsDocument rest then .ok (.empty, rest)
    else
      let r ← node { handles } {} rest
      .ok (r.val.draft.graph, r.val.left)
  | (_, rest) => .error (faultAt rest)

/-- The graph of the first document. There may be none at all. -/
def firstDocument (ts : List Token) : Except ScanFault (Graph × List Token) :=
  match ts with
  | .streamEnd :: _ => .ok (.empty, ts)
  | .directive _ :: _ | .documentStart :: _ => explicitDocument ts
  | ts => do
    let r ← node { handles := Handles.default } {} ts
    .ok (r.val.draft.graph, r.val.left)

/-- Makes sure that no other document follows. -/
def checkEnd : List Token → Except ScanFault Unit
  | .documentEnd :: rest => checkEnd rest
  | .streamEnd :: _ => .ok ()
  | ts => do
    let (_, rest) ← directives false [] ts
    .error (faultAt rest)

/-- The graph of tokens that are one document. -/
def Graph.ofTokens (ts : List Token) : Except ScanFault Graph := do
  let (g, rest) ← firstDocument ts
  checkEnd rest
  .ok g

/-- The graph that a text writes; a text without a document writes null. -/
def Graph.ofText (text : String) : Except Fault Graph := (Graph.ofTokens (tokens text)).mapError ScanFault.fault

end ApiDocs.Yaml

namespace ApiDocs

/-- The datum that a text writes. -/
def Datum.ofYaml (content : String) : Except Fault Datum := do
  (← Yaml.Graph.ofText content).datum

end ApiDocs
