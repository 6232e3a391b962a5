import DocGraph.Store.Basic

/-! Updating records.

    An update visits the records that met its predicates when it began, each once and in order. It
    sets attributes, or asks a callback what becomes of each record. -/

namespace DocGraph

/-- What a callback returns, beside the record it was given as it left it. -/
inductive Reply where
  /-- The record it was given. -/
  | given
  /-- Nothing: the record is left alone. -/
  | nothing
  /-- Another record. -/
  | other (r : Record)
  /-- Something that is no record. -/
  | foreign

/-- A callback: it may change the record it is given, and look at the store at any time. What it
    then sees can depend on how it has left its record by then. -/
abbrev Callback := (Record → Store) → Record → Record × Except Record.SetError Reply

/-- Why an update stops. -/
inductive UpdateError where
  | set (e : Record.SetError)
  /-- A callback returned something else than its record or nothing. -/
  | notGiven
  deriving DecidableEq

/-- The words for a callback that returned something else. -/
def notGivenMessage : String := "update callbacks must return the record they were given or None"

namespace Store

/-- Puts a record in the place of the one with its identity. -/
def replace (s : Store) (r : Record) : Store :=
  { s with records := s.records.map fun q => if q.id = r.id then r else q }

/-- A record that takes over the attributes of another. It keeps its own identity, and what it has
    beyond the fields and the other has not. -/
def commit (r other : Record) : Record :=
  let kept : Named Value :=
    r.extra.filter fun e => !r.fields.names.contains e.1 && !other.extra.names.contains e.1
  { other with id := r.id, extra := kept ++ other.extra }

/-- Sets attributes of the records of some identities in order. A record that refuses one keeps
    those set before, and ends the update. -/
def updateEach (fields : Named Value) (s : Store) : List Int → Store × Except UpdateError Nat
  | [] => (s, .ok 0)
  | id :: ids => match s.get? id with
    | none => updateEach fields s ids
    | some r => match r.setAll fields with
      | (r', some e) => (s.replace r', .error (.set e))
      | (r', none) => match updateEach fields (s.replace r') ids with
        | (s', .ok n) => (s', .ok (n + 1))
        | stopped => stopped

/-- Sets attributes of the records that meet one of the predicates, and says how many they are. -/
def update (s : Store) (ps : List Predicate) (fields : Named Value) :
    Store × Except UpdateError Nat :=
  updateEach fields s ((s.find ps).map Record.id)

/-- The store that a callback sees when it has left its record as `left`. Only with `inPlace` that
    is the stored record. -/
def seen (s : Store) (inPlace : Bool) (r left : Record) : Store :=
  if inPlace then s.replace { left with id := r.id } else s

/-- What becomes of the store when a callback has left its record as `left`. With `inPlace` the
    callback worked on the stored record, else on a copy. The number is one for a record that
    changed. -/
def settle (inPlace : Bool) (s : Store) (r left : Record) :
    Except Record.SetError Reply → Store × Except UpdateError Nat
  | .error e => (s.seen inPlace r left, .error (.set e))
  | .ok reply =>
    let touched := if inPlace then { left with id := r.id } else r
    match reply with
    | .nothing => (s.replace touched, .ok 0)
    | .foreign => (s.replace touched, .error .notGiven)
    | .given =>
      if left.id = r.id then (s.replace (if inPlace then left else commit r left), .ok 1)
      else (s.replace touched, .error .notGiven)
    | .other o =>
      if o.id = r.id then (s.replace (commit touched o), .ok 1)
      else (s.replace touched, .error .notGiven)

/-- What a callback does with a record of the store. -/
def ask (f : Callback) (inPlace : Bool) (s : Store) (r : Record) :
    Record × Except Record.SetError Reply := f (s.seen inPlace r) r

/-- Asks a callback about the records of some identities in order. -/
def updateEachWith (f : Callback) (inPlace : Bool) (s : Store) :
    List Int → Store × Except UpdateError Nat
  | [] => (s, .ok 0)
  | id :: ids => match s.get? id with
    | none => updateEachWith f inPlace s ids
    | some r => match settle inPlace s r (ask f inPlace s r).1 (ask f inPlace s r).2 with
      | (s', .error e) => (s', .error e)
      | (s', .ok n) => match updateEachWith f inPlace s' ids with
        | (s'', .ok m) => (s'', .ok (n + m))
        | stopped => stopped

/-- Asks a callback about the records that meet one of the predicates, and says how many
    changed. -/
def updateWith (s : Store) (ps : List Predicate) (f : Callback) (inPlace : Bool) :
    Store × Except UpdateError Nat :=
  updateEachWith f inPlace s ((s.find ps).map Record.id)

end Store

end DocGraph
