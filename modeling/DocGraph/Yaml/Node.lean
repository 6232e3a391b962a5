import DocGraph.Named
import DocGraph.Yaml.Token

/-! The nodes of a settings text: scalars, sequences and mappings, with aliases replaced by what
    they stand for. -/

namespace DocGraph.Yaml

/-- A node. A scalar knows whether it was written plain. -/
inductive Node where
  | scalar (text : String) (plain : Bool)
  | sequence (items : List Node)
  | mapping (entries : List (Node × Node))
  deriving Inhabited

namespace Node

/-- A node where nothing is written. -/
def blank : Node := .scalar "" true

/-- A node, the tokens behind it, and the anchors known by then. -/
abbrev Read := Option (Node × List Token × Named Node)

/-- Some nodes, the tokens behind them, and the anchors known by then. -/
abbrev ReadItems := Option (List Node × List Token × Named Node)

/-- Some entries, the tokens behind them, and the anchors known by then. -/
abbrev ReadEntries := Option (List (Node × Node) × List Token × Named Node)

/-- Where a node is read: whether blocks may start there, and whether items may stand there without
    an indentation of their own. -/
structure Spot where
  block : Bool
  items : Bool

/-- An item of a block. -/
def Spot.item : Spot := ⟨true, false⟩

/-- A key or a value of a block. -/
def Spot.entry : Spot := ⟨true, true⟩

/-- Inside brackets. -/
def Spot.flow : Spot := ⟨false, false⟩

/-- What an anchor stands for while its own node is being read; nothing when no content follows. -/
def Spot.placeholder? (spot : Spot) : List Token → Option Node
  | .scalar text plain :: _ => some (.scalar text plain)
  | .flowSequence :: _ => some (.sequence [])
  | .flowMapping :: _ => some (.mapping [])
  | .blockSequence :: _ => if spot.block then some (.sequence []) else none
  | .blockMapping :: _ => if spot.block then some (.mapping []) else none
  | .item :: _ => if spot.items then some (.sequence []) else none
  | _ => none

/-- Whether one of the tokens comes next. -/
def atToken (expected : List Token) : List Token → Bool
  | [] => false
  | t :: _ => expected.contains t

mutual

/-- Reads a node. The first argument bounds the number of steps, here and below. -/
def read (spot : Spot) : Nat → List Token → Named Node → Read
  | 0, _, _ => none
  | k + 1, tokens, anchors =>
    match tokens with
    | .alias name :: rest => (anchors.get? name).map fun n => (n, rest, anchors)
    | .anchor name :: rest =>
      if (anchors.get? name).isSome then none
      else match spot.placeholder? rest with
        | none => some (blank, rest, anchors.put name blank)
        | some p => (content spot k rest (anchors.put name p)).map fun r =>
          (r.1, r.2.1, Named.put r.2.2 name r.1)
    | _ => content spot k tokens anchors

/-- Reads a scalar or a collection. -/
def content (spot : Spot) : Nat → List Token → Named Node → Read
  | 0, _, _ => none
  | k + 1, tokens, anchors =>
    match tokens with
    | .scalar text plain :: rest => some (.scalar text plain, rest, anchors)
    | .flowSequence :: rest => (flowItems true k rest anchors).map fun r => (.sequence r.1, r.2)
    | .flowMapping :: rest => (flowEntries true k rest anchors).map fun r => (.mapping r.1, r.2)
    | .blockSequence :: rest =>
      if spot.block then (blockItems k rest anchors).map fun r => (.sequence r.1, r.2) else none
    | .blockMapping :: rest =>
      if spot.block then (blockEntries k rest anchors).map fun r => (.mapping r.1, r.2) else none
    | .item :: _ =>
      if spot.items then (looseItems k tokens anchors).map fun r => (.sequence r.1, r.2) else none
    | _ => none

/-- Reads a node unless one of some tokens comes next. -/
def readUnless (stops : List Token) (spot : Spot) : Nat → List Token → Named Node → Read
  | 0, _, _ => none
  | k + 1, tokens, anchors =>
    if atToken stops tokens then some (blank, tokens, anchors) else read spot k tokens anchors

/-- Reads the items of a block up to its end. -/
def blockItems : Nat → List Token → Named Node → ReadItems
  | 0, _, _ => none
  | k + 1, tokens, anchors =>
    match tokens with
    | .blockEnd :: rest => some ([], rest, anchors)
    | .item :: rest => match readUnless [.item, .blockEnd] .item k rest anchors with
      | none => none
      | some (n, rest, anchors) => (blockItems k rest anchors).map fun r => (n :: r.1, r.2)
    | _ => none

/-- Reads items that have no indentation of their own. -/
def looseItems : Nat → List Token → Named Node → ReadItems
  | 0, _, _ => none
  | k + 1, tokens, anchors =>
    match tokens with
    | .item :: rest => match readUnless [.item, .key, .value, .blockEnd] .item k rest anchors with
      | none => none
      | some (n, rest, anchors) => (looseItems k rest anchors).map fun r => (n :: r.1, r.2)
    | _ => some ([], tokens, anchors)

/-- Reads the value behind a key, if there is one. -/
def valueOf (stops : List Token) (spot : Spot) : Nat → List Token → Named Node → Read
  | 0, _, _ => none
  | k + 1, tokens, anchors =>
    match tokens with
    | .value :: rest => readUnless stops spot k rest anchors
    | _ => some (blank, tokens, anchors)

/-- Reads the entries of a block up to its end. -/
def blockEntries : Nat → List Token → Named Node → ReadEntries
  | 0, _, _ => none
  | k + 1, tokens, anchors =>
    match tokens with
    | .blockEnd :: rest => some ([], rest, anchors)
    | .key :: rest => match readUnless [.key, .value, .blockEnd] .entry k rest anchors with
      | none => none
      | some (key, rest, anchors) =>
        match valueOf [.key, .value, .blockEnd] .entry k rest anchors with
        | none => none
        | some (v, rest, anchors) =>
          (blockEntries k rest anchors).map fun r => ((key, v) :: r.1, r.2)
    | _ => none

/-- Reads items between brackets up to the closing one. All but the first stand behind a comma. -/
def flowItems (first : Bool) : Nat → List Token → Named Node → ReadItems
  | 0, _, _ => none
  | k + 1, tokens, anchors =>
    match tokens with
    | .flowSequenceEnd :: rest => some ([], rest, anchors)
    | .comma :: rest => if first then none else flowItem k rest anchors
    | _ => if first then flowItem k tokens anchors else none

/-- Reads an item between brackets and those behind it. A key makes the item a mapping. -/
def flowItem : Nat → List Token → Named Node → ReadItems
  | 0, _, _ => none
  | k + 1, tokens, anchors =>
    match tokens with
    | .flowSequenceEnd :: rest => some ([], rest, anchors)
    | .key :: rest => match readUnless [.value, .comma, .flowSequenceEnd] .flow k rest anchors with
      | none => none
      | some (key, rest, anchors) =>
        match valueOf [.comma, .flowSequenceEnd] .flow k rest anchors with
        | none => none
        | some (v, rest, anchors) =>
          (flowItems false k rest anchors).map fun r => (.mapping [(key, v)] :: r.1, r.2)
    | _ => match read .flow k tokens anchors with
      | none => none
      | some (n, rest, anchors) => (flowItems false k rest anchors).map fun r => (n :: r.1, r.2)

/-- Reads entries between braces up to the closing one. All but the first stand behind a comma. -/
def flowEntries (first : Bool) : Nat → List Token → Named Node → ReadEntries
  | 0, _, _ => none
  | k + 1, tokens, anchors =>
    match tokens with
    | .flowMappingEnd :: rest => some ([], rest, anchors)
    | .comma :: rest => if first then none else flowEntry k rest anchors
    | _ => if first then flowEntry k tokens anchors else none

/-- Reads an entry between braces and those behind it. A node without a colon is a key without a
    value. -/
def flowEntry : Nat → List Token → Named Node → ReadEntries
  | 0, _, _ => none
  | k + 1, tokens, anchors =>
    match tokens with
    | .flowMappingEnd :: rest => some ([], rest, anchors)
    | .key :: rest => match readUnless [.value, .comma, .flowMappingEnd] .flow k rest anchors with
      | none => none
      | some (key, rest, anchors) =>
        match valueOf [.comma, .flowMappingEnd] .flow k rest anchors with
        | none => none
        | some (v, rest, anchors) =>
          (flowEntries false k rest anchors).map fun r => ((key, v) :: r.1, r.2)
    | _ => match read .flow k tokens anchors with
      | none => none
      | some (key, rest, anchors) =>
        (flowEntries false k rest anchors).map fun r => ((key, blank) :: r.1, r.2)

end

/-- Whether only marks of document ends are left. -/
def onlyEnds (tokens : List Token) : Bool := tokens.all fun t => t = .documentEnd

/-- The node of the only document among tokens. A document may be empty. -/
def ofTokens (tokens : List Token) : Option Node :=
  let steps := 4 * tokens.length + 4
  let behind (tokens : List Token) : Option Node :=
    match read .item steps tokens [] with
    | some (n, rest, _) => if onlyEnds rest then some n else none
    | none => none
  match tokens with
  | [] => some blank
  | .documentStart :: rest => if onlyEnds rest then some blank else behind rest
  | _ => behind tokens

end Node

end DocGraph.Yaml
