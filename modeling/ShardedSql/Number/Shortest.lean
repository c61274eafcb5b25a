import ShardedSql.Number.Binary64

namespace ShardedSql.Number

/-- The number `digits * 10 ^ exponent`. -/
structure Decimal where
  digits : Nat
  exponent : Int
  deriving DecidableEq

/-- All digits written out, without an exponent. -/
def Decimal.text (d : Decimal) : String :=
  let ds := Nat.toDigits 10 d.digits
  match d.exponent with
  | .ofNat zeros => String.ofList (ds ++ List.replicate zeros '0')
  | .negSucc n =>
    let places := n + 1
    let padded := List.replicate (places + 1 - ds.length) '0' ++ ds
    String.ofList (padded.take (padded.length - places) ++ '.' :: padded.drop (padded.length - places))

/-- The reals that round to `significand * 2 ^ exponent`, in quarters of `2 ^ exponent`. The ends
belong to it when the significand is even, which is where a half rounds to. -/
structure Cell where
  significand : Nat
  exponent : Int
  below : Nat

namespace Cell

def low (c : Cell) : Nat := 4 * c.significand - c.below

def high (c : Cell) : Nat := 4 * c.significand + 2

/-- Whether `n` steps of a grid lie in the cell, where a step has the length `step` and a quarter
the length `quarter` on a common scale. -/
def meets (c : Cell) (step quarter n : Nat) : Bool :=
  if c.significand % 2 = 0 then
    c.low * quarter ≤ n * step && n * step ≤ c.high * quarter
  else
    c.low * quarter < n * step && n * step < c.high * quarter

/-- The point of the grid of multiples of `10 ^ e` that lies in the cell, of two such the one
nearer to the middle, and the upper one of two equally near. -/
def onGrid? (c : Cell) (e : Int) : Option Nat :=
  let step := Nat.pow 10 e.toNat <<< (2 - c.exponent).toNat
  let quarter := Nat.pow 10 (-e).toNat <<< (c.exponent - 2).toNat
  let middle := 4 * c.significand * quarter
  let n := middle / step
  match c.meets step quarter n, c.meets step quarter (n + 1) with
  | true, true => if 2 * middle < (2 * n + 1) * step then some n else some (n + 1)
  | true, false => some n
  | false, true => some (n + 1)
  | false, false => none

/-- The first grid with a point in the cell, of the `tries` many from `10 ^ e` downwards. -/
def coarsest (c : Cell) : Nat → Int → Decimal
  | 0, e => ⟨0, e⟩
  | tries + 1, e =>
    match c.onGrid? e with
    | some n => ⟨n, e⟩
    | none => coarsest c tries (e - 1)

/-- The decimal with the fewest digits that rounds back to the same number. The search starts at a
power of ten above the cell, and seventeen digits always suffice. -/
def shortest (c : Cell) : Decimal :=
  c.coarsest 24 ((c.significand.log2 + 1 + c.exponent) * 30103 / 100000 + 2)

end Cell

namespace Binary64

/-- The cell of a finite number other than zero. Just above a power of two the spacing below is
half the spacing above. -/
def cell (x : Binary64) : Cell :=
  if x.exponentField = 0 then ⟨x.fraction, -1074, 2⟩
  else ⟨x.fraction + (1 <<< 52), x.exponentField - 1075,
    if x.fraction = 0 ∧ 1 < x.exponentField then 1 else 2⟩

/-- The shortest decimal that reads back as `x`, never with an exponent, and without a point when
it is whole. -/
def text (x : Binary64) : String :=
  if x.exponentField = 2047 then
    if x.fraction ≠ 0 then "NaN" else if x.isNegative then "-inf" else "inf"
  else
    let magnitude :=
      if x.exponentField = 0 ∧ x.fraction = 0 then "0" else x.cell.shortest.text
    if x.isNegative then "-" ++ magnitude else magnitude

end Binary64

end ShardedSql.Number
