import DocGraph.Files.Tree
import DocGraph.Value.Display
import DocGraph.Value.Equality

/-! Selections: a piece of one line of a source file.

    Lines are counted from one and columns from zero. A negative column counts from the end of the
    line, a missing one leaves the selection open, and one beyond the line is cut to it. -/

namespace DocGraph.Selection

/-- Why a selection cannot be read. -/
inductive Error where
  | file (e : Files.ReadError)
  /-- The file has no such line. -/
  | outside (line path : String) (count : Nat)
  /-- A line or a column is no number. -/
  | wrongType

/-- A bound of a selection: a column, or none. -/
def bound? : Value → Option (Option Int)
  | .null => some none
  | .int n => some (some n)
  | .bool b => some (some (if b then 1 else 0))
  | _ => none

/-- The column that a bound stands for in a line of a given length. -/
def clip (length : Nat) (n : Int) : Nat :=
  if n < 0 then (n + length).toNat else min n.toNat length

/-- The characters from one bound to another. -/
def slice (cs : List Char) (start stop : Option Int) : List Char :=
  let first := match start with
    | some n => clip cs.length n
    | none => 0
  let last := match stop with
    | some n => clip cs.length n
    | none => cs.length
  (cs.drop first).take (last - first)

/-- Whether a line lies before the first or behind the last of `count` lines. -/
def isOutside (line : Value.Quantity) (count : Nat) : Bool :=
  line.less (.finite ⟨1, 0⟩) || Value.Quantity.less (.finite ⟨count, 0⟩) line

/-- The text between two columns of a line of a file. -/
def read (files : Files.Tree) (path : String) (line start stop : Value) : Except Error String :=
  match files.readText path with
  | .error e => .error (.file e)
  | .ok code =>
    let lines := Text.splitOn '\n' code.toList
    match line.quantity? with
    | none => .error .wrongType
    | some q =>
      if isOutside q lines.length then .error (.outside line.text path lines.length)
      else match bound? line, bound? start, bound? stop with
        | some (some n), some first, some last =>
          .ok (String.ofList (slice ((lines[(n - 1).toNat]?).getD []) first last))
        | _, _, _ => .error .wrongType

/-- The refusal in words, when it has any. -/
def Error.message : Error → String
  | file e => e.message
  | outside line path count =>
    "Line " ++ line ++ " is outside " ++ path ++ " (" ++ Number.decimalText count ++ " lines)"
  | wrongType => "a line or a column is no number"

end DocGraph.Selection
