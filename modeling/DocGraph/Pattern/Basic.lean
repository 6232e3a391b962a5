/-! Search patterns.

    A pattern is found in a text when it matches some piece of it. A pattern leads from a place in
    the text to the places where a match that starts there can end, the preferred ones first. Only
    a possessive repetition looks at that order: it keeps the first place and gives up the others.

    Every place is listed once, and a repetition goes on from every place once, so the work grows
    with the number of places and not with the number of ways to reach them. -/

namespace DocGraph

/-- A set of characters: those in one of the ranges, or those in none of them. -/
structure CharSet where
  negated : Bool
  /-- The ranges, both ends included. -/
  ranges : List (Char × Char)

/-- Whether a character belongs to a set. -/
def CharSet.contains (s : CharSet) (c : Char) : Bool :=
  (s.ranges.any fun r => r.1 ≤ c && c ≤ r.2) != s.negated

/-- A pattern. -/
inductive Pattern where
  | nothing
  | one (set : CharSet)
  /-- The start of the text. -/
  | start
  /-- The end of the text, or the place before a final line feed. -/
  | stop
  | both (first second : Pattern)
  /-- One of two; the left one is preferred. -/
  | either (left right : Pattern)
  /-- Any number of matches in a row: as many as possible are preferred, or as few. -/
  | many (asFew : Bool) (p : Pattern)
  /-- A number of matches in a row. -/
  | times (n : Nat) (p : Pattern)
  /-- At most a number of matches in a row. -/
  | upTo (asFew : Bool) (n : Nat) (p : Pattern)
  /-- The preferred match, and no other. -/
  | firstOf (p : Pattern)

namespace Pattern

/-- A place in a text: what is left of the text there, and how many characters that is. -/
structure Place where
  left : Nat
  rest : List Char

/-- A list of different places, the last one first, with the set of those met as the bits of a
    number. -/
structure Trail where
  met : Nat
  places : List Place

namespace Trail

/-- No places. -/
def empty : Trail := ⟨0, []⟩

/-- Whether a place has been met. -/
def hasMet (t : Trail) (p : Place) : Bool := t.met.testBit p.left

/-- Notes that a place has been met. -/
def meet (t : Trail) (p : Place) : Trail := { t with met := t.met ||| 1 <<< p.left }

/-- Lists a place. -/
def list (t : Trail) (p : Place) : Trail := { t with places := p :: t.places }

/-- Lists a place that has not been met. -/
def add (t : Trail) (p : Place) : Trail := if t.hasMet p then t else (t.meet p).list p

end Trail

/-- The different places of a list, in the order in which they come first. -/
def distinct (ps : List Place) : List Place := (ps.foldl Trail.add .empty).places.reverse

/-- Repeats a step from a place that has been met: lists it and the places that further steps lead
    to. The first argument bounds the number of steps. -/
def walk (step : Place → List Place) (asFew : Bool) : Nat → Trail → Place → Trail
  | 0, t, p => t.list p
  | n + 1, t, p =>
    let further (t : Trail) : Trail :=
      (step p).foldl (fun t q => if t.hasMet q then t else walk step asFew n (t.meet q) q) t
    if asFew then further (t.list p) else (further t).list p

/-- The places that a number of steps lead to, from some places. -/
def rounds (step : Place → List Place) : Nat → List Place → List Place
  | 0, ps => ps
  | n + 1, ps => rounds step n (distinct (ps.flatMap step))

/-- A trail, with the places that were gone on from for each number of steps left, the fewest steps
    first. -/
structure Tour where
  trail : Trail
  seen : List Trail

/-- Takes at most a number of steps from a place, and lists the places on the way. A place is gone
    on from once for each number of steps left. -/
def tour (step : Place → List Place) (asFew : Bool) : Nat → Tour → Place → Tour
  | 0, t, p => { t with trail := t.trail.add p }
  | n + 1, t, p =>
    let further (t : Tour) : Tour := (step p).foldl (fun t q =>
      if ((t.seen[n]?).getD .empty).hasMet q then t
      else tour step asFew n { t with seen := t.seen.modify n (Trail.meet · q) } q) t
    let here (t : Tour) : Tour := { t with trail := t.trail.add p }
    if asFew then further (here t) else here (further t)

/-- The places that at most a number of steps lead to. -/
def within (step : Place → List Place) (asFew : Bool) (n : Nat) (p : Place) : List Place :=
  (tour step asFew n ⟨.empty, List.replicate n .empty⟩ p).trail.places.reverse

/-- The places that any number of steps lead to. -/
def reach (step : Place → List Place) (asFew : Bool) (p : Place) : List Place :=
  (walk step asFew p.left (Trail.empty.meet p) p).places.reverse

/-- The places where a match that starts at a place can end, in a text of `total` characters, the
    preferred ones first. More matches in a row than there are characters left add nothing: each of
    them takes a character or changes nothing. -/
def ends (total : Nat) : Pattern → Place → List Place
  | nothing, p => [p]
  | one set, p => match p.rest with
    | [] => []
    | c :: rest => if set.contains c then [⟨p.left - 1, rest⟩] else []
  | start, p => if p.left = total then [p] else []
  | stop, p => if p.rest = [] ∨ p.rest = ['\n'] then [p] else []
  | both a b, p => distinct ((ends total a p).flatMap (ends total b))
  | either a b, p => distinct (ends total a p ++ ends total b p)
  | many asFew a, p => reach (ends total a) asFew p
  | times n a, p => rounds (ends total a) (min n (p.left + 1)) [p]
  | upTo asFew n a, p =>
    if p.left < n then reach (ends total a) asFew p else within (ends total a) asFew n p
  | firstOf a, p => (ends total a p).take 1

/-- Whether the pattern is found at a place or behind it. -/
def foundFrom (p : Pattern) (total : Nat) : List Char → Bool
  | [] => !(p.ends total ⟨0, []⟩).isEmpty
  | c :: cs => !(p.ends total ⟨cs.length + 1, c :: cs⟩).isEmpty || p.foundFrom total cs

/-- Whether the pattern is found in a text. -/
def found (p : Pattern) (s : String) : Bool := p.foundFrom s.toList.length s.toList

end Pattern

end DocGraph
