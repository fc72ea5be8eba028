import ApiDocs.Identifier.Parser

/-!
# Derivations of member ids

The grammar of `Identifier.Parser` as relations between a syntax tree and the tokens that spell it.
Every alternative of a production is one constructor, and none looks at a token that it does not
spell.  A tree keeps what the tokens say and nothing else: the spelling of each level, the mark and
the digits of a reference, the dimensions of an array, the sign of an argument that is passed out.

* `Grammar.DerivesIdentifier tree ts`: `ts` is derived from `identifier`, with `tree` as its tree;
* `Grammar.DerivesArgument tree ts`: the same for `argument`;
* `IdentifierTree.numerals`: the numbers that are to be converted;
* `IdentifierTree.InRange`: every reference means a generic parameter declared behind its mark;
* `IdentifierTree.ReadsAs`: what an identifier has to be to be the one read off a tree.
-/

namespace ApiDocs

/-! ## Syntax trees -/

/-- A number as it is written. -/
structure Numeral where
  digits : List Text.Symbol
deriving DecidableEq

namespace Numeral

/-- The number that the digits write. -/
def value (n : Numeral) : Nat := n.digits.foldl (fun v x => 10 * v + (x.number - 0x30)) 0

/-- Whether there are few enough digits for the number to be converted. -/
def IsReadable (n : Numeral) : Prop := n.digits.length ≤ Decimal.maxDigits

instance (n : Numeral) : Decidable n.IsReadable := inferInstanceAs (Decidable (_ ≤ _))

end Numeral

/-- The number that a token writes. -/
def Token.numeral (t : Token) : Numeral := ⟨t.lexeme⟩

/-- A level of a path as it is written, with the mark and number of its generic parameters. -/
structure SegmentTree where
  name : SegmentName
  generics : Option (Mark × Numeral)
deriving DecidableEq

mutual
/-- An argument as it is written: a reference behind a mark or a dotted path of names, and then the
dimensions of each array suffix. -/
inductive ArgumentTree
  | reference (mark : Mark) (index : Numeral) (arrays : List Nat)
  | path (names : List NameTree) (arrays : List Nat)
/-- A name of a type as it is written, with its generic arguments. -/
inductive NameTree
  | mk (name : String) (arguments : List ArgumentTree)
end

/-- An argument of the parameter list, and whether the sign for passing out stands behind it. -/
structure ParameterTree where
  argument : ArgumentTree
  isOut : Bool

/-- A member id as it is written: the levels before the last, the last, and the parameters if there
are parentheses. -/
structure IdentifierTree where
  outer : List SegmentTree
  last : SegmentTree
  parameters : Option (List ParameterTree)

/-- All levels of the path in order. -/
def IdentifierTree.segments (tree : IdentifierTree) : List SegmentTree := tree.outer ++ [tree.last]

/-! ## The grammar -/

namespace Grammar

inductive DerivesHashedName : List String → List Token → Prop
  | single {t : Token} : t.kind = .name → DerivesHashedName [t.text] [t]
  | cons {t sharp : Token} {names : List String} {ts : List Token} :
      t.kind = .name → sharp.kind = .sharp → DerivesHashedName names ts →
      DerivesHashedName (t.text :: names) (t :: sharp :: ts)

inductive DerivesSegmentName : SegmentName → List Token → Prop
  | special {sharp t : Token} : sharp.kind = .sharp → t.kind = .name →
      DerivesSegmentName (.special t.text) [sharp, t]
  | classSpecial {sharps t : Token} : sharps.kind = .doubleSharp → t.kind = .name →
      DerivesSegmentName (.classSpecial t.text) [sharps, t]
  | hashed {first : String} {more : List String} {ts : List Token} :
      DerivesHashedName (first :: more) ts → DerivesSegmentName (.hashed first more) ts

inductive DerivesArity : Option (Mark × Numeral) → List Token → Prop
  | none : DerivesArity none []
  | some {m number : Token} {mark : Mark} : m.kind.mark? = some mark → number.kind = .number →
      DerivesArity (some (mark, number.numeral)) [m, number]

inductive DerivesSegment : SegmentTree → List Token → Prop
  | mk {name : SegmentName} {generics : Option (Mark × Numeral)} {ts us : List Token} :
      DerivesSegmentName name ts → DerivesArity generics us →
      DerivesSegment ⟨name, generics⟩ (ts ++ us)

inductive DerivesPath : List SegmentTree → SegmentTree → List Token → Prop
  | single {s : SegmentTree} {ts : List Token} : DerivesSegment s ts → DerivesPath [] s ts
  | cons {s last : SegmentTree} {outer : List SegmentTree} {period : Token} {ts us : List Token} :
      DerivesSegment s ts → period.kind = .period → DerivesPath outer last us →
      DerivesPath (s :: outer) last (ts ++ period :: us)

inductive DerivesDimensions : Nat → List Token → Prop
  | single {number colon : Token} : number.kind = .number → colon.kind = .colon →
      DerivesDimensions 1 [number, colon]
  | cons {number colon comma : Token} {n : Nat} {ts : List Token} :
      number.kind = .number → colon.kind = .colon → comma.kind = .comma → DerivesDimensions n ts →
      DerivesDimensions (n + 1) (number :: colon :: comma :: ts)

inductive DerivesArray : Nat → List Token → Prop
  | empty {l r : Token} : l.kind = .leftBracket → r.kind = .rightBracket → DerivesArray 0 [l, r]
  | dimensions {l r : Token} {n : Nat} {ts : List Token} : l.kind = .leftBracket →
      DerivesDimensions n ts → r.kind = .rightBracket → DerivesArray n (l :: ts ++ [r])

inductive DerivesArrays : List Nat → List Token → Prop
  | nil : DerivesArrays [] []
  | cons {n : Nat} {ns : List Nat} {ts us : List Token} :
      DerivesArray n ts → DerivesArrays ns us → DerivesArrays (n :: ns) (ts ++ us)

mutual
/-- An argument, with the alternatives for its type written out. -/
inductive DerivesArgument : ArgumentTree → List Token → Prop
  | reference {m number : Token} {mark : Mark} {ns : List Nat} {ts : List Token} :
      m.kind.mark? = some mark → number.kind = .number → DerivesArrays ns ts →
      DerivesArgument (.reference mark number.numeral ns) (m :: number :: ts)
  | path {names : List NameTree} {ns : List Nat} {ts us : List Token} :
      DerivesTypePath names ts → DerivesArrays ns us → DerivesArgument (.path names ns) (ts ++ us)
inductive DerivesTypePath : List NameTree → List Token → Prop
  | single {name : NameTree} {ts : List Token} :
      DerivesTypeName name ts → DerivesTypePath [name] ts
  | cons {name : NameTree} {names : List NameTree} {period : Token} {ts us : List Token} :
      DerivesTypeName name ts → period.kind = .period → DerivesTypePath names us →
      DerivesTypePath (name :: names) (ts ++ period :: us)
inductive DerivesTypeName : NameTree → List Token → Prop
  | plain {t : Token} : t.kind = .name → DerivesTypeName (.mk t.text []) [t]
  | generic {t l r : Token} {arguments : List ArgumentTree} {ts : List Token} :
      t.kind = .name → l.kind = .leftBrace → DerivesGenericArguments arguments ts →
      r.kind = .rightBrace → DerivesTypeName (.mk t.text arguments) (t :: l :: ts ++ [r])
inductive DerivesGenericArguments : List ArgumentTree → List Token → Prop
  | single {a : ArgumentTree} {ts : List Token} :
      DerivesArgument a ts → DerivesGenericArguments [a] ts
  | cons {a : ArgumentTree} {more : List ArgumentTree} {comma : Token} {ts us : List Token} :
      DerivesArgument a ts → comma.kind = .comma → DerivesGenericArguments more us →
      DerivesGenericArguments (a :: more) (ts ++ comma :: us)
end

inductive DerivesParameter : ParameterTree → List Token → Prop
  | plain {a : ArgumentTree} {ts : List Token} : DerivesArgument a ts → DerivesParameter ⟨a, false⟩ ts
  | out {a : ArgumentTree} {sign : Token} {ts : List Token} :
      DerivesArgument a ts → sign.kind = .atSign → DerivesParameter ⟨a, true⟩ (ts ++ [sign])

inductive DerivesParameterList : List ParameterTree → List Token → Prop
  | single {p : ParameterTree} {ts : List Token} :
      DerivesParameter p ts → DerivesParameterList [p] ts
  | cons {p : ParameterTree} {more : List ParameterTree} {comma : Token} {ts us : List Token} :
      DerivesParameter p ts → comma.kind = .comma → DerivesParameterList more us →
      DerivesParameterList (p :: more) (ts ++ comma :: us)

inductive DerivesParameters : Option (List ParameterTree) → List Token → Prop
  | none : DerivesParameters none []
  | empty {l r : Token} : l.kind = .leftParen → r.kind = .rightParen →
      DerivesParameters (some []) [l, r]
  | list {l r : Token} {ps : List ParameterTree} {ts : List Token} : l.kind = .leftParen →
      DerivesParameterList ps ts → r.kind = .rightParen → DerivesParameters (some ps) (l :: ts ++ [r])

inductive DerivesIdentifier : IdentifierTree → List Token → Prop
  | mk {outer : List SegmentTree} {last : SegmentTree} {ps : Option (List ParameterTree)}
      {ts us : List Token} : DerivesPath outer last ts → DerivesParameters ps us →
      DerivesIdentifier ⟨outer, last, ps⟩ (ts ++ us)

end Grammar

/-! ## References -/

mutual
/-- The references of an argument at every depth: mark and index. -/
def ArgumentTree.references : ArgumentTree → List (Mark × Numeral)
  | .reference mark index _ => [(mark, index)]
  | .path names _ => NameTree.referencesAll names
/-- The references of several arguments. -/
def ArgumentTree.referencesAll : List ArgumentTree → List (Mark × Numeral)
  | [] => []
  | a :: more => a.references ++ ArgumentTree.referencesAll more
/-- The references in the arguments of a name. -/
def NameTree.references : NameTree → List (Mark × Numeral)
  | .mk _ arguments => ArgumentTree.referencesAll arguments
/-- The references of several names. -/
def NameTree.referencesAll : List NameTree → List (Mark × Numeral)
  | [] => []
  | n :: more => n.references ++ NameTree.referencesAll more
end

/-- References that can be converted and mean a name of a scope. -/
def Scope.Resolves (scope : Scope) (references : List (Mark × Numeral)) : Prop :=
  ∀ r ∈ references, r.2.IsReadable ∧ r.2.value < (scope.names r.1).length

theorem Scope.resolves_nil (scope : Scope) : scope.Resolves [] := nofun

theorem Scope.resolves_append {scope : Scope} {rs rs' : List (Mark × Numeral)} :
    scope.Resolves (rs ++ rs') ↔ scope.Resolves rs ∧ scope.Resolves rs' :=
  List.forall_mem_append

/-- How many generic parameters a level declares. -/
def SegmentTree.arity (s : SegmentTree) : Nat := (s.generics.map (·.2.value)).getD 0

/-- The level with the number of its generic parameters converted. -/
def SegmentTree.converted (s : SegmentTree) : PathSegment :=
  ⟨s.name, s.generics.map fun g => (g.1, g.2.value)⟩

/-- How many generic parameters the levels of a path declare. -/
def SegmentTree.totalArity (path : List SegmentTree) : Nat :=
  path.foldr (fun s count => s.arity + count) 0

/-- How many generic parameters the levels of a path declare behind a mark. -/
def declaredCount (mark : Mark) (path : List SegmentTree) : Nat :=
  SegmentTree.totalArity (path.filter fun s => s.generics.map (·.1) = some mark)

namespace IdentifierTree

/-- The parameters in order. -/
def parameterList (tree : IdentifierTree) : List ParameterTree := tree.parameters.getD []

/-- The references in the parameter list. -/
def references (tree : IdentifierTree) : List (Mark × Numeral) :=
  tree.parameterList.flatMap (·.argument.references)

/-- The numbers that are to be converted: those of generic parameters and those of references. -/
def numerals (tree : IdentifierTree) : List Numeral :=
  (tree.segments.filterMap (·.generics)).map (·.2) ++ tree.references.map (·.2)

/-- Every reference means one of the generic parameters declared behind its mark. -/
def InRange (tree : IdentifierTree) : Prop :=
  ∀ r ∈ tree.references, r.2.value < declaredCount r.1 tree.segments

end IdentifierTree

/-! ## Reading off -/

mutual
/-- The type that an argument means when references mean the names of a scope. -/
def ArgumentTree.read (scope : Scope) : ArgumentTree → TypeRef
  | .reference mark index arrays =>
    .mk [.mk ((scope.names mark)[index.value]?.getD "") []] (arrays.map fun n : Nat => (n : Int))
  | .path names arrays => .mk (NameTree.readAll scope names) (arrays.map fun n : Nat => (n : Int))
/-- The types that several arguments mean. -/
def ArgumentTree.readAll (scope : Scope) : List ArgumentTree → List TypeRef
  | [] => []
  | a :: more => a.read scope :: ArgumentTree.readAll scope more
/-- The name of a type with what its arguments mean. -/
def NameTree.read (scope : Scope) : NameTree → TypeName
  | .mk name arguments => .mk name (ArgumentTree.readAll scope arguments)
/-- Several names with what their arguments mean. -/
def NameTree.readAll (scope : Scope) : List NameTree → List TypeName
  | [] => []
  | n :: more => n.read scope :: NameTree.readAll scope more
end

/-- The parameter that an argument of the list means. -/
def ParameterTree.read (scope : Scope) (p : ParameterTree) : Parameter :=
  { type := p.argument.read scope, kind := if p.isOut then .outBit else .none }

namespace IdentifierTree

/-- The names that references behind the two marks mean, when an identifier is read off the tree:
those of the levels that declare their generic parameters behind the same mark. -/
def scopeIn (tree : IdentifierTree) (x : Identifier) : Scope :=
  ⟨namesBehind .ofType, namesBehind .ofMethod⟩
where
  namesBehind (mark : Mark) : List String :=
    (tree.segments.zip x.asClassPath).flatMap fun s =>
      if s.1.generics.map (·.1) = some mark then s.2.typeParameters else []

/-- An identifier is read off a tree: levels, flags and numbers of generic parameters in order, the
last level as the name proper; the generic parameters of all levels named by one count; each
reference replaced by the name at its index behind its mark. -/
structure ReadsAs (tree : IdentifierTree) (isMethod : Bool) (x : Identifier) : Prop where
  names : x.asClassPath.map (·.name) = tree.segments.map (·.name.text)
  flags : x.asClassPath.map (·.flags) = tree.outer.map (·.name.flags) ++
    [if isMethod then tree.last.name.flags ||| .methodBit else tree.last.name.flags]
  arities : x.asClassPath.map (·.typeParameters.length) = tree.segments.map (·.arity)
  generics : x.genericNames =
    (List.range (SegmentTree.totalArity tree.segments)).map fun i => "T" ++ toString (i + 1)
  parameters : x.parameters = tree.parameterList.map (·.read (tree.scopeIn x))

end IdentifierTree

end ApiDocs
