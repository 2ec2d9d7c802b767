import TableDdl.Number.Decimal

/-!
# Binary floating point

The finite numbers of the 64-bit binary format, as a sign and a whole multiple of a power of
two. Reading a decimal picks the nearest of them, and the one with an even mantissa where two
are equally near; a decimal beyond the largest has none.
-/
namespace TableDdl.Number

/-- A mantissa has at most 53 bits, and exactly 53 unless the scale is the smallest. -/
def Canonical (mantissa scale : Nat) : Prop :=
  mantissa < 1 <<< 53 ∧ scale ≤ 2045 ∧ (scale = 0 ∨ 1 <<< 52 ≤ mantissa)

instance (mantissa scale : Nat) : Decidable (Canonical mantissa scale) :=
  inferInstanceAs (Decidable (_ ∧ _))

/-- The number `± mantissa · 2 ^ scale / 2 ^ 1074`. -/
structure Binary64 where
  negative : Bool
  mantissa : Nat
  scale : Nat
  canonical : Canonical mantissa scale
deriving DecidableEq

/-- The natural number nearest to `a / b`, the even one where two are equally near. -/
def nearest (a b : Nat) : Nat :=
  let q := a / b
  let r := a % b
  if 2 * r < b then q else if b < 2 * r then q + 1 else q + q % 2

namespace Binary64

/-- The number one, in units of the smallest positive number of the format. -/
def unitsPerOne : Nat := 1 <<< 1074

def zero (negative : Bool) : Binary64 := ⟨negative, 0, 0, by decide⟩

/-- The absolute value in units. -/
def units (x : Binary64) : Nat := x.mantissa <<< x.scale

def ofParts? (negative : Bool) (mantissa scale : Nat) : Option Binary64 :=
  if h : Canonical mantissa scale then some ⟨negative, mantissa, scale, h⟩ else none

/-- The number nearest to `± a / b` units. Rounding may carry into a 54th bit. -/
def ofUnits? (negative : Bool) (a b : Nat) : Option Binary64 :=
  let scale := (a / b).log2 + 1 - 53
  let mantissa := nearest a (b <<< scale)
  ofParts? negative mantissa scale <|> ofParts? negative (mantissa / 2) (scale + 1)

/-- Magnitudes far outside the format are decided by the count of digits alone. -/
def ofDecimal? (d : Decimal) : Option Binary64 :=
  let magnitude := (digitsOf d.coefficient).length + d.exponent
  if d.coefficient = 0 || magnitude < -330 then some (zero d.negative)
  else if 310 < magnitude then none
  else if 0 ≤ d.exponent then
    ofUnits? d.negative (d.coefficient * Nat.pow 10 d.exponent.toNat * unitsPerOne) 1
  else ofUnits? d.negative (d.coefficient * unitsPerOne) (Nat.pow 10 (-d.exponent).toNat)

def ofText? (text : List Char) : Option Binary64 := (decimal? text).bind ofDecimal?

end Binary64
end TableDdl.Number
