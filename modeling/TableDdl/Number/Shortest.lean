import TableDdl.Number.Binary64

/-!
# Shortest digits

The fewest decimal digits that read back as a given number, and of those the digits nearest to
it. For each count of digits there are two candidates, the neighbours of the number on that
decimal grid; the first count with one that reads back wins.
-/
namespace TableDdl.Number

/-- Which neighbour is taken when a number lies halfway between two that both read back. -/
inductive Tie
  | away
  | even
deriving DecidableEq

namespace Binary64

/-- Zeros between the point and the first digit of `a / b`, for `0 < a < b`. -/
def leadingZeros (b : Nat) : Nat → Nat → Nat
  | 0, _ => 0
  | count + 1, a => if b ≤ 10 * a then 0 else leadingZeros b count (10 * a) + 1

/-- The place `k` with `10 ^ (k - 1) ≤ |x| < 10 ^ k`. -/
def place (x : Binary64) : Int :=
  if unitsPerOne ≤ x.units then (digitsOf (x.units / unitsPerOne)).length
  else -(leadingZeros unitsPerOne 400 x.units : Int)

/-- The neighbour of `x` on the grid of step `10 ^ exponent` that reads back, if one does. -/
def onGrid? (tie : Tie) (x : Binary64) (exponent : Int) : Option Decimal :=
  let a := x.units * Nat.pow 10 (-exponent).toNat
  let b := unitsPerOne * Nat.pow 10 exponent.toNat
  let below : Decimal := ⟨x.negative, a / b, exponent⟩
  let above : Decimal := ⟨x.negative, a / b + 1, exponent⟩
  let r := a % b
  match decide (ofDecimal? below = some x), decide (ofDecimal? above = some x) with
  | false, false => none
  | true, false => some below
  | false, true => some above
  | true, true =>
    if 2 * r < b then some below
    else if b < 2 * r then some above
    else match tie with
      | .away => some above
      | .even => some (if a / b % 2 = 0 then below else above)

/-- Every number is a whole multiple of `10 ^ -1074`. -/
def exactDecimal (x : Binary64) : Decimal := ⟨x.negative, x.units * Nat.pow 5 1074, -1074⟩

def shortest (tie : Tie) (x : Binary64) : Decimal :=
  ((List.range' 1 17).findSome? fun count : Nat => onGrid? tie x (x.place - count)).getD
    x.exactDecimal

theorem ofDecimal?_of_onGrid? {tie : Tie} {x : Binary64} {e : Int} {d : Decimal}
    (h : onGrid? tie x e = some d) : ofDecimal? d = some x := by
  simp only [onGrid?] at h
  split at h
  · simp at h
  · simp_all
  · simp_all
  · split at h
    · simp_all
    · split at h
      · simp_all
      · split at h
        · simp_all
        · split at h <;> simp_all

end Binary64
end TableDdl.Number
