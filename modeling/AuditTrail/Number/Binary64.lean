/-!
Finite binary64 numbers in one normal form, and correct rounding of exact ratios and decimals.
All arithmetic is on natural numbers, so no value depends on a machine's floating point unit.
-/

namespace AuditTrail

/-- The number `±significand · 2 ^ exponent`. The significand is below `2 ^ 53`, and from `2 ^ 52` on
unless the exponent is the least one, so equal fields mean equal numbers, apart from the two
zeros. -/
structure Binary64 where
  negative : Bool
  significand : Nat
  exponent : Int
  normal : significand < 9007199254740992 ∧ -1074 ≤ exponent ∧ exponent ≤ 971 ∧
    (4503599627370496 ≤ significand ∨ exponent = -1074)
deriving DecidableEq

namespace Binary64

def zero (negative : Bool) : Binary64 := ⟨negative, 0, -1074, by decide⟩

instance : Inhabited Binary64 := ⟨zero false⟩

def isZero (x : Binary64) : Bool := x.significand == 0

def sameValue (x y : Binary64) : Bool :=
  (x.isZero && y.isZero) || x == y

def roundHalfEven (num den : Nat) : Nat :=
  let quotient := num / den
  let rest := num % den
  if den < 2 * rest ∨ (2 * rest = den ∧ quotient % 2 = 1) then quotient + 1 else quotient

def scaleDown (num den : Nat) (shift : Int) : Nat × Nat :=
  if 0 ≤ shift then (num, den * Nat.pow 2 shift.toNat)
  else (num * Nat.pow 2 (-shift).toNat, den)

def floorLog2 (num den : Nat) : Int :=
  let guess : Int := (num.log2 : Int) - (den.log2 : Int)
  let (scaled, unit) := scaleDown num den guess
  if unit ≤ scaled then guess else guess - 1

/-- Rounds a positive ratio to `precision` bits with exponents from `least` on. -/
def roundRatio (precision : Nat) (least : Int) (num den : Nat) : Nat × Int :=
  let exponent := max (floorLog2 num den - ((precision : Int) - 1)) least
  let (scaled, unit) := scaleDown num den exponent
  let significand := roundHalfEven scaled unit
  if significand = Nat.pow 2 precision then (Nat.pow 2 (precision - 1), exponent + 1)
  else (significand, exponent)

def ofRatio (negative : Bool) (num den : Nat) : Option Binary64 :=
  if num = 0 then some (zero negative)
  else
    let (significand, exponent) := roundRatio 53 (-1074) num den
    if h : significand < 9007199254740992 ∧ -1074 ≤ exponent ∧ exponent ≤ 971 ∧
        (4503599627370496 ≤ significand ∨ exponent = -1074) then
      some ⟨negative, significand, exponent, h⟩
    else none

/-- The number nearest to `±digits · 10 ^ exponent`. Exponents that alone decide between zero,
overflow and a number are cut off before the exact ratio is built. -/
def ofDecimal (negative : Bool) (digits : Nat) (exponent : Int) : Option Binary64 :=
  if digits = 0 then some (zero negative)
  else if 400 < exponent then none
  else if exponent < -400 - (digits.log2 : Int) then some (zero negative)
  else if 0 ≤ exponent then ofRatio negative (digits * Nat.pow 10 exponent.toNat) 1
  else ofRatio negative digits (Nat.pow 10 (-exponent).toNat)

def ofQuotient (num den : Nat) : Binary64 :=
  (ofRatio false num den).getD (zero false)

end Binary64

inductive Double where
  | finite (x : Binary64)
  | infinity (negative : Bool)
  | nan
deriving DecidableEq

namespace Double

def roundToSingle : Double → Double
  | .finite x =>
    if x.isZero then .finite x
    else
      let (num, den) := Binary64.scaleDown x.significand 1 (-x.exponent)
      let (significand, exponent) := Binary64.roundRatio 24 (-149) num den
      if 104 < exponent then .infinity x.negative
      else
        let (num, den) := Binary64.scaleDown significand 1 (-exponent)
        match Binary64.ofRatio x.negative num den with
        | some y => .finite y
        | none => .infinity x.negative
  | other => other

end Double

end AuditTrail
