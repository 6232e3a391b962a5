import DocGraph.Number.Binary
import DocGraph.Value.Basic

/-! Equality of values by what they stand for.

    Numbers are equal when their exact values are, whatever their type: truth values count as one
    and zero, and a complex number without imaginary part as its real part. Texts, bytes and the
    kinds of containers are kept apart. -/

namespace DocGraph.Value

open Number (BinaryFraction)

/-- The exact size of a real number. -/
inductive Quantity where
  | finite (d : BinaryFraction)
  | infinite (negative : Bool)
  | undefined

/-- The quantity of a double. -/
def quantityOf (x : Float) : Quantity :=
  match Number.unpack x with
  | .nan => .undefined
  | .infinite negative => .infinite negative
  | .finite negative m q => .finite ⟨if negative then -m else m, q⟩

/-- The quantity of a truth value, an integer or a double. -/
def quantity? : Value → Option Quantity
  | bool b => some (.finite ⟨if b then 1 else 0, 0⟩)
  | int n => some (.finite ⟨n, 0⟩)
  | float x => some (quantityOf x)
  | _ => none

/-- Exact equality of quantities; an undefined one equals none. -/
def Quantity.equal : Quantity → Quantity → Bool
  | finite a, finite b => a.compare b == .eq
  | infinite a, infinite b => a == b
  | _, _ => false

/-- Exact strict order of quantities. -/
def Quantity.less : Quantity → Quantity → Bool
  | finite a, finite b => a.compare b == .lt
  | infinite a, finite _ => a
  | finite _, infinite b => !b
  | infinite a, infinite b => a && !b
  | _, _ => false

/-- Equality of two values neither of which is a container. -/
def sameScalar : Value → Value → Bool
  | null, null => true
  | ellipsis, ellipsis => true
  | str a, str b => a == b
  | bytes a, bytes b => a == b
  | complex a b, complex c d => a == c && b == d
  | complex a b, other => b == 0 && match other.quantity? with
    | some q => (quantityOf a).equal q
    | none => false
  | other, complex a b => b == 0 && match other.quantity? with
    | some q => q.equal (quantityOf a)
    | none => false
  | a, b => match a.quantity?, b.quantity? with
    | some p, some q => p.equal q
    | _, _ => false

mutual

/-- Equality of values. Dictionaries and sets are compared without regard to order. -/
def same : Value → Value → Bool
  | list xs, list ys => sameItems xs ys
  | tuple xs, tuple ys => sameItems xs ys
  | dict es, dict fs => es.length == fs.length && allEntriesIn es fs
  | set xs, set ys => xs.length == ys.length && allMembersIn xs ys
  | a, b => sameScalar a b

/-- Equality item by item. -/
def sameItems : List Value → List Value → Bool
  | [], [] => true
  | x :: xs, y :: ys => same x y && sameItems xs ys
  | _, _ => false

/-- Whether each entry has an equal one in `fs`. -/
def allEntriesIn : List (Value × Value) → List (Value × Value) → Bool
  | [], _ => true
  | (k, v) :: es, fs => fs.any (fun f => same k f.1 && same v f.2) && allEntriesIn es fs

/-- Whether each member has an equal one in `ys`. -/
def allMembersIn : List Value → List Value → Bool
  | [], _ => true
  | x :: xs, ys => ys.any (same x) && allMembersIn xs ys

end

/-- Equality of values, with truth values kept apart from numbers. -/
def matchesLiteral (actual expected : Value) : Bool :=
  match actual, expected with
  | bool a, bool b => a == b
  | bool _, _ => false
  | _, bool _ => false
  | a, b => a.same b

/-- Whether a value is a given text. -/
def isText (v : Value) (s : String) : Bool :=
  match v with
  | str t => t = s
  | _ => false

mutual

/-- Whether a value can be a key of a dictionary or a member of a set. -/
def hashable : Value → Bool
  | list _ => false
  | dict _ => false
  | set _ => false
  | tuple items => allHashable items
  | _ => true

/-- Whether every item can be a key. -/
def allHashable : List Value → Bool
  | [] => true
  | x :: xs => hashable x && allHashable xs

end

/-- Sets the value of a key: a key already there keeps its place. -/
def putEntry (key value : Value) : List (Value × Value) → List (Value × Value)
  | [] => [(key, value)]
  | e :: es => if e.1.same key then (e.1, value) :: es else e :: putEntry key value es

/-- The dictionary built by setting the entries in order. -/
def ofEntries (entries : List (Value × Value)) : List (Value × Value) :=
  entries.foldl (fun es e => putEntry e.1 e.2 es) []

/-- The set built by adding the members in order. -/
def ofMembers (members : List Value) : List Value :=
  members.foldl (fun ms m => if ms.any (same m) then ms else ms ++ [m]) []

end DocGraph.Value
