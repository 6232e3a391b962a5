import DocGraph.Number.Binary

/-! The shortest decimal number that reads back as a given double.

    The doubles next to `m * 2 ^ q` leave an interval of reals that round to it; its ends belong to
    it when `m` is even. The shortest decimal is a point of the coarsest grid of multiples of a
    power of ten that meets the interval, and of two such points the nearer one. -/

namespace DocGraph.Number

/-- The interval of reals that round to a double, in units of a fourth of its last place:
    its lower end, the double itself and its upper end. -/
structure Interval where
  lower : Nat
  middle : Nat
  upper : Nat
  closed : Bool

/-- The interval around `m * 2 ^ q`. Below a power of two the doubles stand closer. -/
def interval (m : Nat) (q : Int) : Interval where
  lower := 4 * m - (if m = Nat.pow 2 52 ∧ leastExponent < q then 1 else 2)
  middle := 4 * m
  upper := 4 * m + 2
  closed := m % 2 == 0

/-- The fraction `2 ^ (q - 2) / 10 ^ k`: a unit of the interval in steps of the decimal grid. -/
def gridUnit (q k : Int) : Nat × Nat :=
  let two := q - 2
  ((if 0 ≤ two then Nat.pow 2 two.toNat else 1) * (if k < 0 then Nat.pow 10 (-k).toNat else 1),
    (if two < 0 then Nat.pow 2 (-two).toNat else 1) * (if 0 ≤ k then Nat.pow 10 k.toNat else 1))

/-- The point of the grid of multiples of `10 ^ k` that lies in the interval around `m * 2 ^ q`
    nearest to its middle; of two equally near ones the even one. -/
def gridPoint? (m : Nat) (q k : Int) : Option Nat :=
  let i := interval m q
  let unit := gridUnit q k
  let inside (d : Nat) : Bool :=
    let place := d * unit.2
    let low := i.lower * unit.1
    let high := i.upper * unit.1
    if i.closed then low ≤ place && place ≤ high else low < place && place < high
  let middle := i.middle * unit.1
  let below := middle / unit.2
  let above := below + 1
  match inside below, inside above with
  | true, true =>
    match compare (middle - below * unit.2) (above * unit.2 - middle) with
    | .lt => some below
    | .gt => some above
    | .eq => some (if below % 2 = 0 then below else above)
  | true, false => some below
  | false, true => some above
  | false, false => none

/-- The first hit on the grids `10 ^ k`, `10 ^ (k - 1)`, and so on. -/
def firstGridPoint (m : Nat) (q : Int) : Nat → Int → Nat × Int
  | 0, k => (0, k)
  | tries + 1, k =>
    match gridPoint? m q k with
    | some d => (d, k)
    | none => firstGridPoint m q tries (k - 1)

/-- The shortest decimal `d * 10 ^ k` that rounds to `m * 2 ^ q`, as the pair of `d` and `k`. The
    search begins above the number, and no later than with steps below its last place it ends. -/
def shortest (m : Nat) (q : Int) : Nat × Int :=
  firstGridPoint m q 24 ((q + 53) * 30103 / 100000 + 2)

end DocGraph.Number
