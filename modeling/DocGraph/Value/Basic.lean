/-! Dynamic values: what a symbol list, a default value or a loose field can hold. -/

namespace DocGraph

/-- A value of a data format. A dictionary keeps its entries in the order of their first
    insertion, a set its members likewise. -/
inductive Value where
  | null
  | bool (b : Bool)
  | int (n : Int)
  | float (x : Float)
  | complex (re im : Float)
  | bytes (octets : List UInt8)
  | str (s : String)
  | list (items : List Value)
  | tuple (items : List Value)
  | dict (entries : List (Value × Value))
  | set (members : List Value)
  | ellipsis
  deriving Inhabited

namespace Value

/-- Whether a value counts as true: it is not null, not false, not zero and not empty. -/
def truthy : Value → Bool
  | null => false
  | bool b => b
  | int n => n != 0
  | float x => x != 0
  | complex re im => re != 0 || im != 0
  | bytes octets => !octets.isEmpty
  | str s => !s.isEmpty
  | list items => !items.isEmpty
  | tuple items => !items.isEmpty
  | dict entries => !entries.isEmpty
  | set members => !members.isEmpty
  | ellipsis => true

/-- Whether a value is null. -/
def isNull : Value → Bool
  | null => true
  | _ => false

/-- The items that iterating over a value yields: the characters of a text, the keys of a
    dictionary. Numbers and null cannot be iterated. -/
def items? : Value → Option (List Value)
  | str s => some (s.toList.map fun c => str (String.singleton c))
  | bytes octets => some (octets.map fun b => int b.toNat)
  | list items => some items
  | tuple items => some items
  | dict entries => some (entries.map Prod.fst)
  | set members => some members
  | _ => none

/-- The value under a text key of a dictionary. -/
def lookup (entries : List (Value × Value)) (key : String) : Option Value :=
  match entries with
  | [] => none
  | (str k, v) :: rest => if k = key then some v else lookup rest key
  | _ :: rest => lookup rest key

/-- The value under a text key, when the value is a dictionary that has it. -/
def field? : Value → String → Option Value
  | dict entries, key => lookup entries key
  | _, _ => none

/-- The text keys of a dictionary, in order. -/
def textKeys (entries : List (Value × Value)) : List String :=
  entries.filterMap fun e => match e.1 with
    | str k => some k
    | _ => none

/-- The text that a value is, if it is one. -/
def asText? : Value → Option String
  | str s => some s
  | _ => none

/-- A text or null. -/
def ofText? : Option String → Value
  | some s => str s
  | none => null

/-- A dictionary with text keys. -/
def object (entries : List (String × Value)) : Value :=
  dict (entries.map fun e => (str e.1, e.2))

end Value

end DocGraph
