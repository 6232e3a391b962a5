import DocGraph.Number.Binary
import DocGraph.Value.Basic

/-! The order in which a set lists its members.

    A set keeps its members in a table of slots and lists them slot by slot. A member goes to the
    slot that its hash names, or to the first free one on a path of further slots that the hash
    fixes, and the table grows when three fifths of it are filled. Numbers that are equal have equal
    hashes: the hash of a fraction is its residue modulo a prime. Texts, bytes and the constants
    have no fixed hash; a set with one of them lists its members as they came. -/

namespace DocGraph.Value

/-! ### Hashes -/

/-- The prime that numbers are reduced by. -/
def hashPrime : Nat := Nat.pow 2 61 - 1

/-- The number of hashes. A negative hash counts from the end. -/
def hashCount : Nat := Nat.pow 2 64

/-- A number as a hash. The last hash is not used. -/
def settledHash (n : Int) : Nat :=
  let h := (n.emod hashCount).toNat
  if h = hashCount - 1 then hashCount - 2 else h

/-- The hash of a residue with a sign. -/
def residueHash (negative : Bool) (n : Nat) : Nat :=
  settledHash (if negative then -(n % hashPrime : Nat) else (n % hashPrime : Nat))

/-- The hash of a double. Two to the sixty-first is one modulo the prime. -/
def floatHash? (x : Float) : Option Nat :=
  match Number.unpack x with
  | .nan => none
  | .infinite negative => some (residueHash negative 314159)
  | .finite negative m e => some (residueHash negative (m * Nat.pow 2 (e.emod 61).toNat))

/-- The hash of a complex number. -/
def complexHash (re im : Nat) : Nat := settledHash (re + 1000003 * im : Nat)

/-- Adds the hash of an item to those of the items before it. -/
def mixedHash (mixed item : Nat) : Nat :=
  let sum := (mixed + item * 14029467366897019727) % hashCount
  let turned := (sum * Nat.pow 2 31 + sum / Nat.pow 2 33) % hashCount
  turned * 11400714785074694791 % hashCount

/-- The hash of a tuple from those of its items. -/
def tupleHash (items : List Nat) : Nat :=
  let seed := 2870177450012600261
  let h := (items.foldl mixedHash seed + (items.length ^^^ (seed ^^^ 3527539))) % hashCount
  if h = hashCount - 1 then 1546275796 else h

mutual

/-- The hash of a value, if it has a fixed one. -/
def hash? : Value → Option Nat
  | bool b => some (if b then 1 else 0)
  | int n => some (residueHash (n < 0) n.natAbs)
  | float x => floatHash? x
  | complex re im => match floatHash? re, floatHash? im with
    | some a, some b => some (complexHash a b)
    | _, _ => none
  | tuple items => (hashes? items).map tupleHash
  | _ => none

/-- The hashes of values, if all have a fixed one. -/
def hashes? : List Value → Option (List Nat)
  | [] => some []
  | v :: vs => match v.hash?, hashes? vs with
    | some h, some hs => some (h :: hs)
    | _, _ => none

end

/-! ### Slots -/

/-- What stands for a member, in its slot. -/
structure Seat (α : Type) where
  slot : Nat
  hash : Nat
  item : α

/-- A table: the number of its slots, and what is in them in their order. -/
structure Table (α : Type) where
  size : Nat
  seats : List (Seat α)

namespace Table

variable {α : Type}

/-- A table with eight slots and nothing in them. -/
def empty : Table α := ⟨8, []⟩

/-- Whether a slot is free. -/
def isFree (t : Table α) (slot : Nat) : Bool := t.seats.all fun s => s.slot ≠ slot

/-- The number of neighbours that are tried beside a slot. -/
def neighbours (t : Table α) (slot : Nat) : Nat := if slot + 9 < t.size then 9 else 0

/-- The first free slot on the path from a slot. What is left of the hash turns the path. The first
    argument bounds its length. -/
def freeSlot (t : Table α) : Nat → Nat → Nat → Nat
  | 0, slot, _ => slot
  | k + 1, slot, left =>
    let near := (List.range (t.neighbours slot + 1)).map (slot + ·)
    match near.find? t.isFree with
    | some s => s
    | none =>
      let left := left / 32
      t.freeSlot k ((5 * slot + 1 + left) % t.size) left

/-- Puts a seat in its place among others. -/
def seated (s : Seat α) : List (Seat α) → List (Seat α)
  | [] => [s]
  | t :: ts => if s.slot < t.slot then s :: t :: ts else t :: seated s ts

/-- Puts an item into its slot. -/
def place (t : Table α) (hash : Nat) (item : α) : Table α :=
  let slot := t.freeSlot (t.size + 64) (hash % t.size) hash
  { t with seats := seated ⟨slot, hash, item⟩ t.seats }

/-- The number of slots for some items: the least power of two above four times their number, or
    above twice their number when they are many. -/
def sizeFor (items : Nat) : Nat :=
  let least := if 50000 < items then 2 * items else 4 * items
  max 8 (Nat.pow 2 (least.log2 + 1))

/-- Adds an item, and lets the table grow if it is three fifths full. -/
def add (t : Table α) (hash : Nat) (item : α) : Table α :=
  let t := t.place hash item
  if 5 * t.seats.length < 3 * (t.size - 1) then t
  else t.seats.foldl (fun u s => u.place s.hash s.item) ⟨sizeFor t.seats.length, []⟩

end Table

/-- The items that belong to the members of a set, in the order in which the set lists its
    members. -/
def listed {α : Type} (members : List Value) (items : List α) : List α :=
  match hashes? members with
  | none => items
  | some hashes =>
    let t := (hashes.zip items).foldl (fun t m => t.add m.1 m.2) Table.empty
    t.seats.map Seat.item

end DocGraph.Value
