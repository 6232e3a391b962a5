/-! Character classes as lists of changes.

    A class of characters is kept as the increasing list of code points at which membership
    changes, read from outside the class: the first entry opens a run of members, the second
    closes it, and so on. -/

namespace DocGraph.Text

/-- Membership of a code point in the class that changes at `flips`. -/
def inClass : List Nat → Nat → Bool
  | [], _ => false
  | f :: fs, n => if n < f then false else !(inClass fs n)

end DocGraph.Text
