import RowStore.Number.Binary64

/-!
# The shortest decimal that reads back

Every decimal in a certain interval around a finite number reads back as that number. Of these
decimals the one on the coarsest grid of powers of ten is the shortest, and of two on that grid
the nearer one is taken. Two that are equally near are told apart by a rule of the format.
-/

namespace RowStore

/-- Which of two decimals that are equally near is taken. -/
inductive Tie where
  /-- The one with an even last digit. -/
  | toEven
  /-- The larger one. -/
  | up
  deriving DecidableEq

/-- `digits * 10 ^ exponent`. -/
structure Decimal where
  digits : Nat
  exponent : Int
  deriving DecidableEq

namespace Binary64

/-- The numbers that round to a given one, in units of `2 ^ -1076`: the ends belong to the
interval when `closed` holds. -/
structure Interval where
  low : Nat
  value : Nat
  high : Nat
  closed : Bool

/-- Half a step to each neighbour. Below a power of two the neighbour is only half as far. -/
def interval (x : Binary64) : Interval :=
  let m := x.significand
  let unit := Nat.pow 2 x.scale
  let below := if m == Nat.pow 2 52 && 0 < x.scale then 1 else 2
  ⟨(4 * m - below) * unit, 4 * m * unit, (4 * m + 2) * unit, m % 2 == 0⟩

namespace Interval

def contains (i : Interval) (times step : Nat) (d : Nat) : Bool :=
  let low := i.low * times
  let high := i.high * times
  let point := d * step
  (low < point && point < high) || (i.closed && (point == low || point == high))

/-- The point of a grid that is nearest to the value, if it is in the interval. Scaled up by `times`,
the interval has the grid point `d` at the whole number `d * step`. -/
def nearestPoint? (i : Interval) (tie : Tie) (times step : Nat) : Option Nat :=
  let value := i.value * times
  let d := value / step
  match i.contains times step d, i.contains times step (d + 1) with
  | true, true =>
    let below := value - d * step
    let above := (d + 1) * step - value
    let tied := match tie with
      | .toEven => d % 2 == 1
      | .up => true
    if above < below || (above == below && tied) then some (d + 1) else some d
  | true, false => some d
  | false, true => some (d + 1)
  | false, false => none

/-- The point of the grid `10 ^ k` in the interval that is nearest to its value. -/
def gridPoint? (i : Interval) (tie : Tie) (k : Int) : Option Nat :=
  i.nearestPoint? tie (Nat.pow 10 (-k).toNat) (Nat.pow 10 k.toNat * Nat.pow 2 1076)

/-- A power of ten that is above the interval, from the number of bits of its value. -/
def top (i : Interval) : Int := ((i.value.log2 : Int) - 1075) * 30103 / 100000 + 2

end Interval

/-- The coarsest grid that has a point, from `10 ^ k` downwards. -/
def coarsest (point? : Int → Option Nat) : Nat → Int → Decimal
  | 0, k => ⟨(point? k).getD 0, k⟩
  | steps + 1, k =>
    match point? k with
    | some d => ⟨d, k⟩
    | none => coarsest point? steps (k - 1)

/-- The shortest decimal for a finite number other than zero. Seventeen digits always suffice,
and the search begins at most three powers of ten above the first of them. -/
def shortest (tie : Tie) (x : Binary64) : Decimal :=
  let i := x.interval
  coarsest (i.gridPoint? tie) 20 i.top

end Binary64

end RowStore
