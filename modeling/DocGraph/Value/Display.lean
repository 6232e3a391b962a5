import DocGraph.Number.Layout
import DocGraph.Text.Quoted
import DocGraph.Value.Slots

/-! The written form of values.

    `display` writes a value as a literal: texts are quoted, a tuple of one ends in a comma, and
    the empty set is spelled out. `text` is the same but for a text, which stands for itself. -/

namespace DocGraph.Value

/-- Written items with a comma and a blank between them. -/
def commaJoined (items : List (List Char)) : List Char := List.intercalate [',', ' '] items

mutual

/-- The written form of a value. -/
def displayChars : Value → List Char
  | null => "None".toList
  | bool true => "True".toList
  | bool false => "False".toList
  | int n => (Number.decimalText n).toList
  | float x => (Number.floatText x).toList
  | complex re im => (Number.complexText re im).toList
  | bytes octets => (Text.quotedBytes octets).toList
  | str s => Text.quotedChars s.toList
  | list items => '[' :: (commaJoined (displayAll items) ++ [']'])
  | tuple items => match displayAll items with
    | [one] => '(' :: (one ++ [',', ')'])
    | all => '(' :: (commaJoined all ++ [')'])
  | dict entries => '\x7b' :: (commaJoined (displayEntries entries) ++ ['\x7d'])
  | set members => match listed members (displayAll members) with
    | [] => "set()".toList
    | all => '\x7b' :: (commaJoined all ++ ['\x7d'])
  | ellipsis => "Ellipsis".toList

/-- The written forms of the items. -/
def displayAll : List Value → List (List Char)
  | [] => []
  | v :: vs => displayChars v :: displayAll vs

/-- The written forms of the entries. -/
def displayEntries : List (Value × Value) → List (List Char)
  | [] => []
  | (k, v) :: es => (displayChars k ++ ':' :: ' ' :: displayChars v) :: displayEntries es

end

mutual

/-- Whether a value holds an integer that is too long to be written. -/
def hasLongInteger : Value → Bool
  | int n => Number.isTooLong n
  | list items => anyLongInteger items
  | tuple items => anyLongInteger items
  | set members => anyLongInteger members
  | dict entries => anyLongEntry entries
  | _ => false

/-- Whether one of some values holds such an integer. -/
def anyLongInteger : List Value → Bool
  | [] => false
  | v :: vs => v.hasLongInteger || anyLongInteger vs

/-- Whether a key or a value of some entries holds such an integer. -/
def anyLongEntry : List (Value × Value) → Bool
  | [] => false
  | (k, v) :: es => k.hasLongInteger || v.hasLongInteger || anyLongEntry es

end

/-- The written form of a value as a string. -/
def display (v : Value) : String := String.ofList (displayChars v)

/-- A value as text: a text stands for itself, any other value is written as by `display`. -/
def text : Value → String
  | str s => s
  | v => v.display

end DocGraph.Value
