import DocGraph.Yaml.Datum
import DocGraph.Yaml.Node

/-! Reading a settings text as data.

    The outer levels of a text are looked at before the inner ones, so of several faults the
    outermost is reported. -/

namespace DocGraph.Yaml

/-- Whether a node is the key that merges another mapping. -/
def isMerge : Node → Bool
  | .scalar text true => text = Datum.mergeWord
  | _ => false

/-- What is wrong with a node, and how deep it lies. -/
structure Fault where
  depth : Nat
  error : Error

/-- Data, or the fault that is met first when the outer levels are looked at before the inner
    ones. -/
abbrev Built (α : Type) := Except Fault α

/-- Two results together. Of two faults at one depth the first counts. -/
def together {α β : Type} : Built α → Built β → Built (α × β)
  | .ok a, .ok b => .ok (a, b)
  | .ok _, .error f => .error f
  | .error e, .ok _ => .error e
  | .error e, .error f => .error (if f.depth < e.depth then f else e)

/-- A result of a depth. -/
def atDepth {α : Type} (depth : Nat) (r : Except Error α) : Built α := r.mapError (⟨depth, ·⟩)

/-- The datum of a key. Only a scalar can be one. -/
def keyOf : Node → Except Error Datum
  | .scalar text plain =>
    if plain && text ≠ Datum.defaultWord then Datum.ofPlain text else .ok (.str text)
  | .sequence _ => .error .malformed
  | .mapping _ => .error .malformed

mutual

/-- Whether the entries of a mapping merge only mappings. -/
def mergesWell : List (Node × Node) → Bool
  | [] => true
  | (k, v) :: rest => (!isMerge k || canMerge v) && mergesWell rest

/-- Whether a node can be merged into a mapping. -/
def canMerge : Node → Bool
  | .scalar .. => false
  | .mapping entries => mergesWell entries
  | .sequence items => canMergeAll items

/-- Whether nodes are mappings that can be merged into one. -/
def canMergeAll : List Node → Bool
  | [] => true
  | .mapping entries :: rest => mergesWell entries && canMergeAll rest
  | _ :: _ => false

end

mutual

/-- The datum of a node at a depth. -/
def datum (depth : Nat) : Node → Built Datum
  | .scalar text true => atDepth depth (Datum.ofPlain text)
  | .scalar text false => .ok (.str text)
  | .sequence items => (data (depth + 1) items).map .list
  | .mapping entries => (entriesOf (depth + 1) entries).map .mapping

/-- The data of nodes. -/
def data (depth : Nat) : List Node → Built (List Datum)
  | [] => .ok []
  | n :: ns => (together (datum depth n) (data depth ns)).map fun r => r.1 :: r.2

/-- The entries of a mapping: those merged into it, and its own. -/
def entriesOf (depth : Nat) (entries : List (Node × Node)) : Built (List (Datum × Datum)) :=
  if mergesWell entries then
    (together (mergedInto depth entries) (own depth entries)).map fun r => r.1 ++ r.2
  else .error ⟨depth, .malformed⟩

/-- The entries that a mapping has of its own. -/
def own (depth : Nat) : List (Node × Node) → Built (List (Datum × Datum))
  | [] => .ok []
  | (k, v) :: rest =>
    if isMerge k then own depth rest
    else
      let entry := together (atDepth depth (keyOf k)) (datum depth v)
      (together entry (own depth rest)).map fun r => r.1 :: r.2

/-- The entries that are merged into a mapping. -/
def mergedInto (depth : Nat) : List (Node × Node) → Built (List (Datum × Datum))
  | [] => .ok []
  | (k, v) :: rest =>
    if isMerge k then
      (together (merged depth v) (mergedInto depth rest)).map fun r => r.1 ++ r.2
    else mergedInto depth rest

/-- The entries that a node contributes to a mapping that it is merged into. -/
def merged (depth : Nat) : Node → Built (List (Datum × Datum))
  | .scalar .. => .ok []
  | .mapping entries => entriesOf depth entries
  | .sequence items => mergedAll depth items

/-- The entries that mappings contribute; earlier ones win, so they come last. -/
def mergedAll (depth : Nat) : List Node → Built (List (Datum × Datum))
  | [] => .ok []
  | n :: rest => (together (mergedAll depth rest) (merged depth n)).map fun r => r.1 ++ r.2

end

/-- The data of a settings text. -/
def read (s : String) : Except Error Datum := do
  let tokens ← Token.scan s.toList
  let node ← orMalformed (Node.ofTokens tokens)
  (datum 0 node).mapError Fault.error

/-- The datum under a text key. -/
def lookup (entries : List (Datum × Datum)) (key : String) : Option Datum :=
  (entries.reverse.find? fun e => match e.1 with
    | .str k => k = key
    | _ => false).map Prod.snd

end DocGraph.Yaml
