import AuditTrail.Number.Binary64

/-!
The fewest decimal digits that still read back as a given binary64 number. The reals that round
to it form an interval; the coarsest power-of-ten grid with a point inside gives the digits, and
of two points the nearer one is taken.
-/

namespace AuditTrail

inductive Tie where
  | toEven
  | away
deriving DecidableEq

structure Decimal where
  digits : Nat
  exponent : Int
deriving DecidableEq

structure RoundingInterval where
  low : Nat
  value : Nat
  high : Nat
  unit : Nat
  closed : Bool

namespace RoundingInterval

/-- Half a unit in the last place on both sides, a quarter below a power of two; the ends belong
to the interval when the significand is even. -/
def ofSignificand (significand : Nat) (exponent : Int) : RoundingInterval :=
  let below := if significand = 4503599627370496 ∧ -1074 < exponent then 1 else 2
  let (scale, unit) := Binary64.scaleDown 1 1 (2 - exponent)
  { low := (4 * significand - below) * scale
    value := 4 * significand * scale
    high := (4 * significand + 2) * scale
    unit := unit
    closed := significand % 2 == 0 }

def onGrid (interval : RoundingInterval) (grid : Int) : RoundingInterval :=
  if 0 ≤ grid then { interval with unit := interval.unit * Nat.pow 10 grid.toNat }
  else
    let scale := Nat.pow 10 (-grid).toNat
    { interval with
      low := interval.low * scale
      value := interval.value * scale
      high := interval.high * scale }

def contains (interval : RoundingInterval) (point : Nat) : Bool :=
  let scaled := point * interval.unit
  if interval.closed then interval.low ≤ scaled && scaled ≤ interval.high
  else interval.low < scaled && scaled < interval.high

def nearest? (interval : RoundingInterval) (tie : Tie) : Option Nat :=
  let floor := interval.value / interval.unit
  let rest := interval.value % interval.unit
  match interval.contains floor, interval.contains (floor + 1) with
  | true, false => some floor
  | false, true => some (floor + 1)
  | false, false => none
  | true, true =>
    if 2 * rest < interval.unit then some floor
    else if interval.unit < 2 * rest then some (floor + 1)
    else
      match tie with
      | .away => some (floor + 1)
      | .toEven => some (if floor % 2 = 0 then floor else floor + 1)

/-- Walks from the grid `10 ^ grid` through `steps` finer ones; the last grid holds the value
itself. -/
def search (interval : RoundingInterval) (tie : Tie) : Nat → Int → Decimal
  | 0, grid =>
    let fine := interval.onGrid grid
    ⟨fine.value / fine.unit, grid⟩
  | steps + 1, grid =>
    match (interval.onGrid grid).nearest? tie with
    | some digits => ⟨digits, grid⟩
    | none => search interval tie steps (grid - 1)

end RoundingInterval

namespace Binary64

def coarsestGrid (x : Binary64) : Int :=
  (x.exponent + x.significand.log2 + 1) * 30103 / 100000 + 2

def shortest (x : Binary64) (tie : Tie) : Decimal :=
  let finest := min 0 x.exponent
  let coarsest := max finest x.coarsestGrid
  (RoundingInterval.ofSignificand x.significand x.exponent).search tie
    (coarsest - finest).toNat coarsest

end Binary64

namespace Decimal

def positional (d : Decimal) : List Char :=
  let digits := Nat.toDigits 10 d.digits
  if 0 ≤ d.exponent then digits ++ List.replicate d.exponent.toNat '0'
  else
    let places := (-d.exponent).toNat
    if places < digits.length then
      digits.take (digits.length - places) ++ '.' :: digits.drop (digits.length - places)
    else '0' :: '.' :: List.replicate (places - digits.length) '0' ++ digits

def leadingExponent (d : Decimal) : Int :=
  d.exponent + (Nat.toDigits 10 d.digits).length - 1

def scientific (d : Decimal) : List Char :=
  let exponent := d.leadingExponent
  let sign := if exponent < 0 then '-' else '+'
  let mantissa := match Nat.toDigits 10 d.digits with
    | [] => []
    | [digit] => [digit]
    | digit :: rest => digit :: '.' :: rest
  mantissa ++ 'e' :: sign :: Nat.toDigits 10 exponent.natAbs

end Decimal

end AuditTrail
