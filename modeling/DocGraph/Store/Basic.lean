import DocGraph.Number.Digits
import DocGraph.Store.Predicate

/-! Stores: records by identity, in the order of their insertion.

    An identity is given out at most once and belongs to at most one record, also after that record
    has been removed. -/

namespace DocGraph

/-- A collection of records. -/
structure Store where
  records : List Record
  /-- The identities that have been inserted, those since removed included. -/
  used : List Int
  /-- The identities that have been given out and not inserted yet. -/
  reserved : List Int
  /-- No identity below this one is given out any more. -/
  nextId : Int

namespace Store

/-- A store of which nothing has been asked. -/
def empty : Store := ⟨[], [], [], 0⟩

/-- The first number from `n` on that is not taken. The second argument bounds the search; a number
    as large as the list of those taken is enough. -/
def firstFree (taken : List Int) : Nat → Int → Int
  | 0, n => n
  | k + 1, n => if taken.contains n then firstFree taken k (n + 1) else n

/-- Gives out an identity. -/
def reserve (s : Store) : Store × Int :=
  let taken := s.used ++ s.reserved
  let id := firstFree taken taken.length s.nextId
  ({ s with reserved := s.reserved ++ [id], nextId := id + 1 }, id)

/-- An identity that has been used. -/
structure UsedId where
  id : Int
  deriving DecidableEq

/-- The refusal in words. -/
def UsedId.message (e : UsedId) : String :=
  "Record id " ++ Number.decimalText e.id ++ " was already used in this store"

/-- Adds a record at the end. -/
def insert (s : Store) (r : Record) : Except UsedId Store :=
  if s.used.contains r.id then .error ⟨r.id⟩
  else .ok
    { records := s.records ++ [r]
      used := s.used ++ [r.id]
      reserved := s.reserved.filter (· != r.id)
      nextId := max s.nextId (r.id + 1) }

/-- The record of an identity. -/
def get? (s : Store) (id : Int) : Option Record := s.records.find? fun r => r.id = id

/-- Removes the record of an identity, if there is one. -/
def discard (s : Store) (id : Int) : Store :=
  { s with records := s.records.filter fun r => r.id ≠ id }

/-- The records that meet one of the predicates, in order; all of them when there are none. -/
def find (s : Store) (ps : List Predicate) : List Record := s.records.filter fun r => r.fitsAny ps

/-- The records with a long name. -/
def findByName (s : Store) (longname : Value) : List Record :=
  s.find [[("longname", .ofValue longname)]]

/-- The identities in order. -/
def ids (s : Store) : List Int := s.records.map Record.id

/-- Removes the records that meet one of the predicates, and says how many they were. -/
def remove (s : Store) (ps : List Predicate) : Store × Nat :=
  let matched := s.find ps
  (matched.foldl (fun s r => s.discard r.id) s, matched.length)

end Store

end DocGraph
