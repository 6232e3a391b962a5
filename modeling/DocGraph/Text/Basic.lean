import DocGraph.Text.Blank

/-! Cutting and trimming text.

    The operations work on lists of characters, where they are plain recursions; `onText` carries
    one over to strings. -/

namespace DocGraph.Text

/-- Drops the longest run of characters satisfying `p` from the end. -/
def dropEndWhile (p : Char → Bool) (cs : List Char) : List Char :=
  (cs.reverse.dropWhile p).reverse

/-- Drops the characters satisfying `p` from both ends. -/
def trimWith (p : Char → Bool) (cs : List Char) : List Char :=
  dropEndWhile p (cs.dropWhile p)

/-- Drops white space from both ends. -/
def trim (cs : List Char) : List Char := trimWith isBlank cs

/-- The pieces between the occurrences of `sep`; there is always at least one. -/
def splitOn (sep : Char) : List Char → List (List Char)
  | [] => [[]]
  | c :: cs =>
    if c = sep then [] :: splitOn sep cs
    else match splitOn sep cs with
      | [] => [[c]]
      | piece :: pieces => (c :: piece) :: pieces

/-- The pieces with `sep` between them. -/
def joinWith (sep : List Char) (pieces : List (List Char)) : List Char :=
  List.intercalate sep pieces

/-- The text before the first `sep`, and the text after it when there is one. -/
def cut (sep : Char) (cs : List Char) : List Char × Option (List Char) :=
  (cs.takeWhile (· != sep),
    match cs.dropWhile (· != sep) with
    | [] => none
    | _ :: rest => some rest)

/-- Removes the first occurrence of `pattern`. -/
def eraseFirst (pattern : List Char) : List Char → List Char
  | [] => []
  | c :: cs =>
    if pattern.isPrefixOf (c :: cs) then (c :: cs).drop pattern.length
    else c :: eraseFirst pattern cs

/-- Replaces the line break pair by a single line feed. -/
def unifyBreaks : List Char → List Char
  | '\r' :: '\n' :: cs => '\n' :: unifyBreaks cs
  | c :: cs => c :: unifyBreaks cs
  | [] => []

/-- Replaces every line break, a carriage return alone included, by a line feed. -/
def toLineFeeds (cs : List Char) : List Char :=
  (unifyBreaks cs).map fun c => if c = '\r' then '\n' else c

/-- Applies an operation on lists of characters to a string. -/
def onText (f : List Char → List Char) (s : String) : String := String.ofList (f s.toList)

/-- A string without white space at either end. -/
def trimmed (s : String) : String := onText trim s

/-- Whether `s` begins with `head`. -/
def startsWith (s head : String) : Bool := head.toList.isPrefixOf s.toList

/-- Whether `c` occurs in `s`. -/
def hasChar (s : String) (c : Char) : Bool := s.toList.contains c

/-- The string without its first `n` characters. -/
def dropChars (s : String) (n : Nat) : String := onText (List.drop n) s

/-- The strings in order with `sep` between them. -/
def joined (sep : String) (parts : List String) : String := String.intercalate sep parts

/-- Strings in increasing order of their code points. -/
def sorted (names : List String) : List String :=
  names.mergeSort fun a b => decide (¬ b < a)

end DocGraph.Text
