import Phrasebook.Number.Binary64

/-! The shortest decimal text of a floating-point number. The real numbers that round to a given
finite number form an interval; its text has the fewest digits that name a point of this interval,
and of the points with so few digits the one nearest to the number. -/

namespace Phrasebook

namespace Shortest

/-- The digits of a decimal fraction `0.d₁d₂… · 10 ^ exponent`. -/
structure Decimal where
  digits : List Char
  exponent : Int
  deriving DecidableEq

/-- The reals that round to `units`, in half units: the two ends, and whether they belong to it. -/
structure Interval where
  low : Nat
  high : Nat
  closed : Bool

/-- Below a power of two the neighbours are twice as near as above it. -/
def interval (units : Nat) : Interval :=
  let above := Binary64.spacing units
  let below := if units = Nat.pow 2 units.log2 ∧ 1 < above then above / 2 else above
  { low := 2 * units - below
    high := 2 * units + above
    closed := (units / above) % 2 = 0 }

/-- Whether the real `num / den`, in half units, lies in the interval. -/
def Interval.holds (i : Interval) (num den : Nat) : Bool :=
  if i.closed then i.low * den ≤ num && num ≤ i.high * den
  else i.low * den < num && num < i.high * den

/-- The place of the decimal point: the least power of ten above the number. The shift by 400
places brings the smallest number above one. -/
def pointPlace (units : Nat) : Int :=
  ((Nat.repr (units * Nat.pow 10 400 / Binary64.one)).length : Int) - 400

/-- The point of the grid `10 ^ place` that stands for the number, if one lies in its interval. Only
the two points next to the number can be nearest; a tie goes to the even one. -/
def onGrid? (units : Nat) (place : Int) : Option Nat :=
  let i := interval units
  let (scale, den) :=
    if 0 ≤ place then (Nat.pow 10 place.toNat * (2 * Binary64.one), 1)
    else (2 * Binary64.one, Nat.pow 10 (-place).toNat)
  let num := 2 * units * den
  let below := num / scale
  let above := below + 1
  match i.holds (below * scale) den, i.holds (above * scale) den with
  | false, false => none
  | true, false => some below
  | false, true => some above
  | true, true =>
      let down := num - below * scale
      let up := above * scale - num
      some (if down < up ∨ (down = up ∧ below % 2 = 0) then below else above)

/-- Search the grids of `count` digits and more; seventeen digits always suffice. -/
def search (units : Nat) (point : Int) : (count more : Nat) → Nat × Int
  | count, 0 => ((onGrid? units (point - count)).getD 0, point - count)
  | count, more + 1 =>
      match onGrid? units (point - count) with
      | some n => (n, point - count)
      | none => search units point (count + 1) more

/-- The shortest decimal of a positive number of units. -/
def decimal (units : Nat) : Decimal :=
  let (n, place) := search units (pointPlace units) 1 16
  let spelled := (Nat.repr n).toList
  { digits := (spelled.reverse.dropWhile (· == '0')).reverse
    exponent := place + spelled.length }

/-- A decimal with its point and at least one digit on either side of it. -/
def positional (d : Decimal) : List Char :=
  if d.exponent ≤ 0 then
    '0' :: '.' :: (List.replicate (-d.exponent).toNat '0' ++ d.digits)
  else
    let whole := d.digits.take d.exponent.toNat
    let part := d.digits.drop d.exponent.toNat
    let padding := List.replicate (d.exponent.toNat - d.digits.length) '0'
    whole ++ padding ++ '.' :: (if part.isEmpty then ['0'] else part)

/-- A decimal with one digit before the point and an exponent of at least two digits. -/
def scientific (d : Decimal) : List Char :=
  let e := d.exponent - 1
  let spelled := (Nat.repr e.natAbs).toList
  let padded := if spelled.length < 2 then '0' :: spelled else spelled
  d.digits.take 1 ++ (if d.digits.length ≤ 1 then [] else '.' :: d.digits.drop 1) ++
    'e' :: (if e < 0 then '-' else '+') :: padded

/-- Numbers from `10⁻⁴` up to below `10¹⁶` are written without an exponent. -/
def decimalText (d : Decimal) : List Char :=
  if -4 < d.exponent ∧ d.exponent ≤ 16 then positional d else scientific d

end Shortest

/-- The text of a floating-point number. -/
def Binary64.text : Binary64 → String
  | .nan _ => "nan"
  | .infinite negative => if negative then "-inf" else "inf"
  | .finite negative units _ =>
      let body := if units = 0 then "0.0".toList else Shortest.decimalText (Shortest.decimal units)
      String.ofList (if negative then '-' :: body else body)

end Phrasebook
