import DocGraph.Resolution.Basic
import DocGraph.Store.Update

/-! Lists that several records hold.

    A record that is given a list holds that very list, and so does every other record that the same
    update gives it to. What is added to it through one of them, all of them have. A callback that
    works on a copy of its record adds to copies of the record's lists, but for those that it has
    just set itself. -/

namespace DocGraph

/-- An attribute of a record. -/
structure Holder where
  id : Int
  name : String
  deriving DecidableEq

/-- The lists that records were given, and which attributes hold them. -/
structure Sharing where
  /-- The lists, by their numbers. -/
  lists : List (List Value)
  /-- The attributes that hold a list, with its number. -/
  holders : List (Holder × Nat)

/-- What a callback does with each record: it sets attributes, adds to lists, and replies by the
    record that it was given and what it has made of it. -/
structure Amendment where
  set : Named Value
  add : Named Value
  reply : Record → Record → Reply

namespace Amendment

/-- The callback, for records that hold no lists in common. -/
def callback (a : Amendment) : Callback := fun _ r =>
  match r.setAll a.set with
  | (left, some e) => (left, .error e)
  | (left, none) => match left.appendAll a.add with
    | (left, some e) => (left, .error e)
    | (left, none) => (left, .ok (a.reply r left))

end Amendment

/-- The names that can be set: those in front of the identity. -/
def settable (fields : Named Value) : List String := fields.names.takeWhile (· ≠ "id")

namespace Sharing

/-- No record was given a list. -/
def empty : Sharing := ⟨[], []⟩

/-- The list of a number. -/
def list (sh : Sharing) (n : Nat) : List Value := sh.lists.getD n []

/-- Adds an item to the list of a number. -/
def grow (sh : Sharing) (n : Nat) (v : Value) : Sharing :=
  { sh with lists := sh.lists.modify n (· ++ [v]) }

/-- Takes up the lists among some values, and gives them numbers by their names. -/
def enlist (sh : Sharing) : Named Value → Sharing × Named Nat
  | [] => (sh, [])
  | (name, .list items) :: more =>
    let (sh', numbers) := { sh with lists := sh.lists ++ [items] }.enlist more
    (sh', (name, sh.lists.length) :: numbers)
  | _ :: more => sh.enlist more

/-- The number of the list that an attribute holds. -/
def number? (sh : Sharing) (h : Holder) : Option Nat :=
  (sh.holders.find? fun e => e.1 = h).map Prod.snd

/-- Attributes of a record that hold no list any more. -/
def release (sh : Sharing) (id : Int) (names : List String) : Sharing :=
  { sh with holders := sh.holders.filter fun e => !(e.1.id = id && names.contains e.1.name) }

/-- Attributes of a record that are set anew. Those of them with a number hold its list. -/
def give (sh : Sharing) (id : Int) (names : List String) (numbers : Named Nat) : Sharing :=
  let given := numbers.filter fun e => names.contains e.1
  { sh with
    holders := (sh.release id names).holders ++ given.map fun e => (⟨id, e.1⟩, e.2) }

/-- The store in which every attribute shows the list that it holds. -/
def shown (sh : Sharing) (s : Store) : Store :=
  sh.holders.foldl (fun s e => match s.get? e.1.id with
    | some r => s.replace (r.setAll [(e.1.name, .list (sh.list e.2))]).1
    | none => s) s

/-! ### Updates -/

/-- Sets attributes of the records that meet one of the predicates. All of them hold the lists that
    are set. -/
def update (sh : Sharing) (s : Store) (ps : List Predicate) (fields : Named Value) :
    (Sharing × Store) × Except UpdateError Nat :=
  let (sh, numbers) := sh.enlist fields
  let (s', outcome) := s.update ps fields
  -- what cannot be set on one record can be set on none, so a failure is one of the first record
  let reached := match outcome with
    | .ok _ => s.find ps
    | .error _ => (s.find ps).take 1
  ((reached.foldl (fun sh r => sh.give r.id (settable fields) numbers) sh, s'), outcome)

/-- Adds items to lists of a record in order, up to the first attribute that holds none. A list with
    a number grows for all that hold it. -/
def addAll (sh : Sharing) (number? : String → Option Nat) (r : Record) :
    Named Value → Sharing × Record × Option Record.SetError
  | [] => (sh, r, none)
  | (name, v) :: more => match r.append name v with
    | .error e => (sh, r, some e)
    | .ok r' => match number? name with
      | some n => (sh.grow n v).addAll number? r' more
      | none => sh.addAll number? r' more

/-- The number of the list that a callback adds to, in an attribute of its record or of a copy. The
    attributes that it has set hold the lists of `own`. -/
def target? (sh : Sharing) (a : Amendment) (inPlace : Bool) (own : Named Nat) (id : Int)
    (name : String) : Option Nat :=
  if a.set.names.contains name then own.get? name
  else if inPlace then sh.number? ⟨id, name⟩
  else none

/-- What a callback does with a record, and to the lists. -/
def ask (sh : Sharing) (a : Amendment) (inPlace : Bool) (own : Named Nat) (r : Record) :
    Sharing × Record × Except Record.SetError Reply :=
  let values : Named Value := a.set.map fun e =>
    (e.1, ((own.get? e.1).map fun n => Value.list (sh.list n)).getD e.2)
  match r.setAll values with
  | (left, some e) => (sh, left, .error e)
  | (left, none) => match sh.addAll (sh.target? a inPlace own r.id) left a.add with
    | (sh, left, some e) => (sh, left, .error e)
    | (sh, left, none) => (sh, left, .ok (a.reply r left))

/-- Who holds which list once a callback is done with a record. -/
def settle (sh : Sharing) (a : Amendment) (inPlace : Bool) (own : Named Nat) (r left : Record)
    (reply : Except Record.SetError Reply) : Sharing :=
  let touched := if inPlace then sh.give r.id (settable a.set) own else sh
  match reply with
  | .ok .given =>
    if inPlace then touched
    else (sh.release r.id left.attributeNames).give r.id (settable a.set) own
  | .ok (.other o) => if o.id = r.id then touched.release r.id o.attributeNames else touched
  | _ => touched

/-- Asks a callback about the records of some identities in order. -/
def amendEach (a : Amendment) (inPlace : Bool) (own : Named Nat) (sh : Sharing) (s : Store) :
    List Int → (Sharing × Store) × Except UpdateError Nat
  | [] => ((sh, s), .ok 0)
  | id :: ids => match s.get? id with
    | none => amendEach a inPlace own sh s ids
    | some r =>
      let (asked, left, reply) := sh.ask a inPlace own r
      let settled := asked.settle a inPlace own r left reply
      match Store.settle inPlace s r left reply with
      | (s', .error e) => ((settled, settled.shown s'), .error e)
      | (s', .ok n) => match amendEach a inPlace own settled (settled.shown s') ids with
        | (after, .ok m) => (after, .ok (n + m))
        | stopped => stopped

/-- Asks a callback about the records that meet one of the predicates, and says how many changed. -/
def amend (sh : Sharing) (s : Store) (ps : List Predicate) (a : Amendment) (inPlace : Bool) :
    (Sharing × Store) × Except UpdateError Nat :=
  let (sh, own) := sh.enlist a.set
  amendEach a inPlace own sh s ((s.find ps).map Record.id)

/-! ### Resolution -/

/-- The attributes in which names are shortened one by one, into a new list. -/
def shortenedNames : List String := ["extends", "implements", "test_targets"]

/-- Who still holds which list when a store is resolved. Relations are derived anew, lists of names
    that are shortened are new ones, and what is not allowed to stay a list is none. -/
def resolve (sh : Sharing) (settings : Settings) (s : Store) : Sharing :=
  let shortens := settings.removeCommonPath && !(CommonPath.common s.records).isEmpty
  let shortened (h : Holder) (n : Nat) : Bool :=
    shortens && shortenedNames.contains h.name && !(sh.list n).isEmpty &&
      ((s.get? h.id).bind CommonPath.pathOf).isSome
  let isList (h : Holder) : Bool :=
    ((Resolution.resolve settings s).get? h.id).any fun r => (r.get h.name).members?.isSome
  { sh with
    holders := sh.holders.filter fun e =>
      Relations.isUnrelated e.1.name && !shortened e.1 e.2 && isList e.1 }

end Sharing

end DocGraph
