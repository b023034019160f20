/-! Binary floating-point numbers of 64 bits. Every finite one is a whole number of units of
`2⁻¹⁰⁷⁴`, so it is kept as its sign and that number of units, and order and equality are those of
integers. A rounded quotient of two natural numbers is the only way in: integers and decimal texts
both become floating-point numbers through it. NaN carries a mark that tells one NaN from another;
no comparison of numbers looks at it. -/

namespace Phrasebook

namespace Binary64

/-- The number one, in units. -/
def one : Nat := Nat.pow 2 1074

/-- The units from which a number counts as infinite. -/
def limit : Nat := Nat.pow 2 2098

/-- The distance between neighbours at this size: 53 binary digits are kept. -/
def spacing (units : Nat) : Nat :=
  Nat.pow 2 (units.log2 - 52)

/-- A number of units that 64 bits can hold. -/
def Fits (units : Nat) : Prop :=
  units < limit ∧ units % spacing units = 0

instance (units : Nat) : Decidable (Fits units) :=
  inferInstanceAs (Decidable (_ ∧ _))

end Binary64

inductive Binary64
  | nan (mark : Nat)
  | infinite (negative : Bool)
  | finite (negative : Bool) (units : Nat) (fits : Binary64.Fits units)
  deriving DecidableEq

namespace Binary64

/-! ### Rounding -/

/-- A quotient to the nearest integer, a tie to the even one. -/
def roundDiv (num den : Nat) : Nat :=
  let q := num / den
  let r := num % den
  if 2 * r < den ∨ (2 * r = den ∧ q % 2 = 0) then q else q + 1

/-- The multiple of the spacing that is nearest to `num / den` units. -/
def nearest (num den : Nat) : Nat :=
  let step := spacing (num / den)
  roundDiv num (den * step) * step

/-- The number of this many units, infinite when 64 bits cannot hold it. -/
def ofUnits (negative : Bool) (units : Nat) : Binary64 :=
  if h : Fits units then .finite negative units h else .infinite negative

/-- The number nearest to `num / den`. -/
def ofRatio (negative : Bool) (num den : Nat) : Binary64 :=
  ofUnits negative (nearest (num * one) den)

/-- A number, unless it is infinite. -/
def bounded? : Binary64 → Option Binary64
  | infinite _ => none
  | x => some x

/-- The number nearest to an integer; none when the integer is too large. -/
def ofInt? (n : Int) : Option Binary64 :=
  bounded? (ofRatio (n < 0) n.natAbs 1)

/-- The number nearest to `digits · 10 ^ exponent`. Far outside the range the answer is known from
the count of digits alone, and no power is computed. -/
def ofDecimal (negative : Bool) (digits : Nat) (exponent : Int) : Binary64 :=
  let magnitude := exponent + (Nat.repr digits).length
  if digits = 0 ∨ magnitude < -400 then ofUnits negative 0
  else if 400 < magnitude then .infinite negative
  else if 0 ≤ exponent then ofRatio negative (digits * Nat.pow 10 exponent.toNat) 1
  else ofRatio negative digits (Nat.pow 10 (-exponent).toNat)

/-! ### Order -/

/-- The place of a number in the order, in units; the infinities lie beyond all finite numbers, and
NaN has no place. -/
def rank : Binary64 → Option Int
  | nan _ => none
  | infinite negative => some (if negative then -limit else limit)
  | finite negative units _ => some (if negative then -units else units)

/-- Equality of numbers: the two zeros are equal, and NaN equals nothing. -/
def eq (x y : Binary64) : Bool :=
  match x.rank, y.rank with
  | some a, some b => a == b
  | _, _ => false

def lt (x y : Binary64) : Bool :=
  match x.rank, y.rank with
  | some a, some b => a < b
  | _, _ => false

def le (x y : Binary64) : Bool :=
  match x.rank, y.rank with
  | some a, some b => a ≤ b
  | _, _ => false

/-- Exact equality with an integer of any size. -/
def eqInt : Binary64 → Int → Bool
  | finite negative units _, n => (if negative then -(units : Int) else units) == n * one
  | _, _ => false

def isNaN : Binary64 → Bool
  | nan _ => true
  | _ => false

def isFinite : Binary64 → Bool
  | finite _ _ _ => true
  | _ => false

def isZero : Binary64 → Bool
  | finite _ units _ => units == 0
  | _ => false

/-- The integer that a number is, if it is one. -/
def toInt? : Binary64 → Option Int
  | finite negative units _ =>
      if units % one = 0 then some (if negative then -(units / one : Nat) else (units / one : Nat))
      else none
  | _ => none

end Binary64

end Phrasebook
