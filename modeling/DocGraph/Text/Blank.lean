import DocGraph.Text.Class

/-! White space: the characters at which text is trimmed and at which words end. -/

namespace DocGraph.Text

/-- The changes of the white space class. -/
def blankFlips : List Nat :=
  [9, 14, 28, 33, 133, 134, 160, 161, 5760, 5761, 8192, 8203, 8232, 8234, 8239, 8240, 8287, 8288,
   12288, 12289]

/-- White space: the control characters 9 to 13 and 28 to 31, the space, and the space characters
    and separators beyond ASCII. -/
def isBlank (c : Char) : Bool := inClass blankFlips c.toNat

end DocGraph.Text
