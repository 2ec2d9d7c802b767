import Mathlib.Algebra.Group.Nat.Defs
import TableDdl.Number.Shortest

/-!
# Decimals of the same value

A decimal is read by its value alone: a factor of ten may stand in the coefficient or in the
exponent. A finite number is a whole multiple of the smallest one, and reading that multiple
gives the number back.
-/
namespace TableDdl.Number

theorem digitsOf_mul_ten {n : Nat} (positive : 0 < n) : digitsOf (10 * n) = digitsOf n ++ ['0'] := by
  have division := Nat.toDigits_append_toDigits (b := 10) (n := n) (d := 0)
    (by decide) positive (by decide)
  rw [Nat.add_zero, Nat.toDigits_zero] at division
  exact division.symm

theorem digitsOf_mul_pow {n : Nat} (positive : 0 < n) (k : Nat) :
    digitsOf (n * 10 ^ k) = digitsOf n ++ List.replicate k '0' := by
  induction k with
  | zero => simp
  | succ k ih =>
    have split : n * 10 ^ (k + 1) = 10 * (n * 10 ^ k) := by
      rw [Nat.pow_succ, Nat.mul_comm 10, Nat.mul_assoc]
    rw [split, digitsOf_mul_ten (Nat.mul_pos positive (Nat.pow_pos (by decide))), ih,
      List.replicate_succ', List.append_assoc]

theorem length_digitsOf_le_iff {n k : Nat} (positive : 0 < k) :
    (digitsOf n).length ≤ k ↔ n < 10 ^ k :=
  Nat.length_toDigits_le_iff (by decide) positive

theorem valueOfDigits_append (ds es : List Char) :
    valueOfDigits (ds ++ es) = valueOfDigits ds * 10 ^ es.length + valueOfDigits es := by
  have general : ∀ (es : List Char) (n : Nat),
      es.foldl (fun n c => 10 * n + digitValue c) n = n * 10 ^ es.length + valueOfDigits es := by
    intro es
    induction es with
    | nil => simp [valueOfDigits]
    | cons c es ih =>
      intro n
      simp only [valueOfDigits, List.foldl_cons, List.length_cons]
      rw [ih (10 * n + digitValue c), ih (10 * 0 + digitValue c), Nat.add_mul, Nat.add_mul,
        Nat.pow_succ]
      grind
  rw [valueOfDigits, List.foldl_append]
  exact general es _

theorem valueOfDigits_replicate (k : Nat) : valueOfDigits (List.replicate k '0') = 0 := by
  induction k with
  | zero => rfl
  | succ k ih =>
    rw [List.replicate_succ', valueOfDigits_append, ih]
    rfl

theorem nearest_mul {a b t : Nat} (positive : 0 < t) : nearest (a * t) (b * t) = nearest a b := by
  simp only [nearest, Nat.mul_div_mul_right _ _ positive, Nat.mul_mod_mul_right]
  have below : 2 * (a % b * t) < b * t ↔ 2 * (a % b) < b := by
    rw [← Nat.mul_assoc]
    exact Nat.mul_lt_mul_right positive
  have above : b * t < 2 * (a % b * t) ↔ b < 2 * (a % b) := by
    rw [← Nat.mul_assoc]
    exact Nat.mul_lt_mul_right positive
  simp only [below, above]

namespace Binary64

theorem ofUnits?_mul (negative : Bool) {a b t : Nat} (positive : 0 < t) :
    ofUnits? negative (a * t) (b * t) = ofUnits? negative a b := by
  have shift (s : Nat) : (b * t) <<< s = (b <<< s) * t := by
    rw [Nat.shiftLeft_eq, Nat.shiftLeft_eq, Nat.mul_right_comm]
  simp only [ofUnits?, Nat.mul_div_mul_right _ _ positive, shift, nearest_mul positive]

/-- A power of ten may be moved from the coefficient to the exponent. -/
theorem ofDecimal?_scale (negative : Bool) (c k : Nat) (e : Int) :
    ofDecimal? ⟨negative, c * 10 ^ k, e⟩ = ofDecimal? ⟨negative, c, e + k⟩ := by
  rcases Nat.eq_zero_or_pos c with rfl | positive
  · simp [ofDecimal?]
  have magnitude : ((digitsOf (c * 10 ^ k)).length : Int) + e = (digitsOf c).length + (e + k) := by
    rw [digitsOf_mul_pow positive, List.length_append, List.length_replicate]
    omega
  have nonzero : c * 10 ^ k ≠ 0 := Nat.ne_of_gt (Nat.mul_pos positive (Nat.pow_pos (by decide)))
  have ten (n : Nat) : 0 < 10 ^ n := Nat.pow_pos (by decide)
  simp only [ofDecimal?, magnitude, nonzero, Nat.ne_of_gt positive, decide_false, Bool.false_or]
  split
  · rfl
  split
  · rfl
  show (if 0 ≤ e then ofUnits? negative (c * 10 ^ k * 10 ^ e.toNat * unitsPerOne) 1
    else ofUnits? negative (c * 10 ^ k * unitsPerOne) (10 ^ (-e).toNat)) =
    if 0 ≤ e + k then ofUnits? negative (c * 10 ^ (e + k).toNat * unitsPerOne) 1
    else ofUnits? negative (c * unitsPerOne) (10 ^ (-(e + k)).toNat)
  -- By the sign of both exponents; only if they differ does a power change sides.
  by_cases whole : 0 ≤ e
  · have total : (e + k).toNat = k + e.toNat := by omega
    simp only [whole, show 0 ≤ e + k by omega, if_true, total, Nat.pow_add, Nat.mul_assoc]
  · by_cases reached : 0 ≤ e + k
    · have total : k = (e + k).toNat + (-e).toNat := by omega
      simp only [whole, reached, if_true, if_false]
      have factor : c * 10 ^ k * unitsPerOne
          = c * 10 ^ (e + k).toNat * unitsPerOne * 10 ^ (-e).toNat := by
        conv => lhs; rw [total, Nat.pow_add]
        grind
      have unit := ofUnits?_mul negative (a := c * 10 ^ (e + k).toNat * unitsPerOne) (b := 1)
        (ten (-e).toNat)
      rw [factor]
      rwa [Nat.one_mul] at unit
    · have total : (-e).toNat = (-(e + k)).toNat + k := by omega
      simp only [whole, reached, if_false, total, Nat.pow_add]
      rw [Nat.mul_right_comm, ofUnits?_mul negative (ten k)]

theorem scale_units (x : Binary64) : x.units.log2 + 1 - 53 = x.scale := by
  obtain ⟨negative, m, s, below, -, normal⟩ := x
  simp only [units, Nat.shiftLeft_eq, Nat.one_mul] at below normal ⊢
  rcases Nat.eq_zero_or_pos s with rfl | positive
  · have : m.log2 < 53 := by
      rcases Nat.eq_zero_or_pos m with rfl | some
      · decide
      · exact (Nat.log2_lt (Nat.ne_of_gt some)).2 below
    simp only [Nat.pow_zero, Nat.mul_one]
    omega
  · have normal : 2 ^ 52 ≤ m := by omega
    have nonzero : m * 2 ^ s ≠ 0 :=
      Nat.ne_of_gt (Nat.mul_pos (by omega) (Nat.pow_pos (by decide)))
    have low : 52 + s ≤ (m * 2 ^ s).log2 := by
      rw [Nat.le_log2 nonzero, Nat.pow_add]
      exact Nat.mul_le_mul_right _ normal
    have high : (m * 2 ^ s).log2 < 53 + s := by
      rw [Nat.log2_lt nonzero, Nat.pow_add]
      exact Nat.mul_lt_mul_of_pos_right below (Nat.pow_pos (by decide))
    omega

theorem ofUnits?_units (x : Binary64) : ofUnits? x.negative x.units 1 = some x := by
  have exact' : nearest x.units (1 <<< x.scale) = x.mantissa := by
    have whole : x.units = x.mantissa * (1 <<< x.scale) := by
      rw [units, Nat.shiftLeft_eq, Nat.shiftLeft_eq, Nat.one_mul]
    have positive : 0 < 1 <<< x.scale := by
      rw [Nat.shiftLeft_eq]
      exact Nat.mul_pos Nat.one_pos (Nat.pow_pos (by decide))
    simp [nearest, whole, Nat.mul_div_cancel _ positive, Nat.mul_mod_left, positive]
  simp only [ofUnits?, Nat.div_one, scale_units, exact', ofParts?, x.canonical, dif_pos]
  rfl

theorem units_lt {x : Binary64} {k : Nat} (h : 53 + x.scale ≤ k) : x.units < 2 ^ k := by
  have below := x.canonical.1
  rw [Nat.one_shiftLeft] at below
  calc x.units = x.mantissa * 2 ^ x.scale := Nat.shiftLeft_eq _ _
    _ < 2 ^ 53 * 2 ^ x.scale := Nat.mul_lt_mul_of_pos_right below (Nat.pow_pos (by decide))
    _ = 2 ^ (53 + x.scale) := (Nat.pow_add 2 53 x.scale).symm
    _ ≤ 2 ^ k := Nat.pow_le_pow_right (by decide) h

/-- The exact decimal of a number, brought to units, is rounded to the number. -/
theorem ofUnits?_exact (x : Binary64) (k : Nat) :
    ofUnits? x.negative (x.units * Nat.pow 5 k * 1 <<< k) (Nat.pow 10 k) = some x := by
  have tens : x.units * Nat.pow 5 k * 1 <<< k = x.units * Nat.pow 10 k := by
    rw [Nat.one_shiftLeft, Nat.mul_assoc]
    exact congrArg _ (Nat.mul_pow 5 2 k).symm
  have positive : 0 < Nat.pow 10 k := Nat.pow_pos (by decide)
  have scaled := ofUnits?_mul x.negative (a := x.units) (b := 1) positive
  rw [Nat.one_mul] at scaled
  rw [tens, scaled, ofUnits?_units]

/-- The digits of an exact value are within the bounds on magnitudes. -/
theorem magnitude_exactDecimal (x : Binary64) (positive : 0 < x.units) :
    744 ≤ (digitsOf x.exactDecimal.coefficient).length ∧
      (digitsOf x.exactDecimal.coefficient).length ≤ 1384 := by
  constructor
  · rw [Nat.lt_iff_add_one_le.symm, ← Nat.not_le, length_digitsOf_le_iff (by decide)]
    have five : 10 ^ 743 ≤ Nat.pow 5 1074 := by decide +kernel
    exact Nat.not_lt.2 (Nat.le_trans five (Nat.le_mul_of_pos_left _ positive))
  · rw [length_digitsOf_le_iff (by decide)]
    have bound : 2 ^ 2098 * Nat.pow 5 1074 ≤ 10 ^ 1384 := by decide +kernel
    have below := units_lt (k := 2098) (Nat.add_le_add_left x.canonical.2.1 53)
    have some : 0 < Nat.pow 5 1074 := by decide +kernel
    exact Nat.lt_of_lt_of_le (Nat.mul_lt_mul_of_pos_right below some) bound

theorem ofDecimal?_exactDecimal (x : Binary64) : ofDecimal? x.exactDecimal = some x := by
  rcases Nat.eq_zero_or_pos x.units with none | positive
  · obtain ⟨negative, m, s, below, small, normal⟩ := x
    simp only [units, Nat.shiftLeft_eq, Nat.mul_eq_zero, Nat.pow_eq_zero] at none
    obtain rfl : m = 0 := by omega
    obtain rfl : s = 0 := normal.resolve_right (by decide)
    simp only [ofDecimal?, exactDecimal, units, Nat.zero_shiftLeft, Nat.zero_mul, decide_true,
      Bool.true_or, if_true]
    rfl
  · obtain ⟨low, high⟩ := magnitude_exactDecimal x positive
    have exponent : x.exactDecimal.exponent = -1074 := rfl
    have nonzero : x.exactDecimal.coefficient ≠ 0 := by
      intro none
      rw [none] at low
      exact absurd low (by decide)
    have notSmall : ¬ ((digitsOf x.exactDecimal.coefficient).length : Int) + -1074 < -330 := by
      omega
    have notLarge : ¬ 310 < ((digitsOf x.exactDecimal.coefficient).length : Int) + -1074 := by
      omega
    have below : ¬ (0 : Int) ≤ -1074 := by decide
    simp only [ofDecimal?, exponent, nonzero, notSmall, notLarge, below, decide_false,
      Bool.or_self, Bool.false_eq_true, if_false, Int.neg_neg]
    simp only [exactDecimal, unitsPerOne, Int.reduceToNat]
    -- With a variable exponent no power is worked out.
    generalize 1074 = k
    exact ofUnits?_exact x k

/-- The shortest digits read back. -/
theorem ofDecimal?_shortest (tie : Tie) (x : Binary64) : ofDecimal? (x.shortest tie) = some x := by
  rw [shortest]
  cases found : (List.range' 1 17).findSome? fun count : Nat => onGrid? tie x (x.place - count) with
  | none => exact ofDecimal?_exactDecimal x
  | some d =>
    obtain ⟨count, -, grid⟩ := List.exists_of_findSome?_eq_some found
    exact ofDecimal?_of_onGrid? grid

end Binary64
end TableDdl.Number
