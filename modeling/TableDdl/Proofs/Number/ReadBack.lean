import Mathlib.Data.List.TakeWhile
import TableDdl.Layout.Piece
import TableDdl.Proofs.Number.Scaling

/-!
# Written numbers read back

A number in SQL is written as an optional minus sign, digits and an optional fraction, never with
an exponent, and its text reads back as the same number.
-/
namespace TableDdl.Number

/-- Digits with a fraction, where there is one. -/
def plainText (whole fraction : List Char) : List Char :=
  if fraction = [] then whole else whole ++ '.' :: fraction

theorem dropTrailingZeros_append (digits : List Char) :
    ∃ k, digits = dropTrailingZeros digits ++ List.replicate k '0' := by
  have whole := List.takeWhile_append_dropWhile (p := (· == '0')) (l := digits.reverse)
  have zeros : digits.reverse.takeWhile (· == '0') =
      List.replicate (digits.reverse.takeWhile (· == '0')).length '0' := by
    refine List.eq_replicate_iff.2 ⟨rfl, fun c hc => ?_⟩
    simpa using List.all_eq_true.1 (List.all_takeWhile (p := (· == '0')) (l := digits.reverse)) c hc
  refine ⟨(digits.reverse.takeWhile (· == '0')).length, ?_⟩
  rw [dropTrailingZeros, ← List.reverse_inj, List.reverse_append, List.reverse_reverse,
    List.reverse_replicate, ← zeros, whole]

/-- The digits before and after the point, when `digits` are written with the point after the
first `point` of them: they make up the digits themselves, or these with zeros after them. -/
theorem positionalText_eq {digits : List Char} (point : Int) (some : digits ≠ [])
    (all : ∀ c ∈ digits, c.isDigit) :
    ∃ whole fraction, positionalText false digits point = plainText whole fraction ∧
      whole ≠ [] ∧ (∀ c ∈ whole ++ fraction, c.isDigit) ∧
      ∃ k : Nat, valueOfDigits (whole ++ fraction) = valueOfDigits digits * 10 ^ k ∧
        point - digits.length = -(fraction.length : Int) + k := by
  have zeros (k : Nat) : ∀ c ∈ List.replicate k '0', c.isDigit := by
    intro c hc
    rw [List.eq_of_mem_replicate hc]
    decide
  -- The point stands before all digits, behind all of them, or among them.
  by_cases small : point ≤ 0
  · refine ⟨['0'], List.replicate (-point).toNat '0' ++ digits, ?_, by simp, ?_, 0, ?_, ?_⟩
    · simp [positionalText, small, plainText, some]
    · intro c hc
      simp only [List.mem_append, List.mem_singleton] at hc
      rcases hc with rfl | hc | hc
      · decide
      · exact zeros _ c hc
      · exact all c hc
    · rw [← List.append_assoc, valueOfDigits_append]
      have lead : valueOfDigits (['0'] ++ List.replicate (-point).toNat '0') = 0 :=
        valueOfDigits_replicate ((-point).toNat + 1)
      rw [lead, Nat.zero_mul, Nat.zero_add, Nat.pow_zero, Nat.mul_one]
    · rw [List.length_append, List.length_replicate]
      omega
  by_cases short : digits.length ≤ point.toNat
  · refine ⟨digits ++ List.replicate (point.toNat - digits.length) '0', [], ?_, by simp [some], ?_,
      point.toNat - digits.length, ?_, ?_⟩
    · simp [positionalText, small, plainText, List.drop_eq_nil_of_le short,
        List.take_of_length_le short]
    · intro c hc
      simp only [List.append_nil, List.mem_append] at hc
      rcases hc with hc | hc
      · exact all c hc
      · exact zeros _ c hc
    · rw [List.append_nil, valueOfDigits_append, valueOfDigits_replicate, List.length_replicate,
        Nat.add_zero]
    · simp only [List.length_nil]
      omega
  · have fraction : digits.drop point.toNat ≠ [] := by simp; omega
    have padding : point.toNat - digits.length = 0 := by omega
    refine ⟨digits.take point.toNat, digits.drop point.toNat, ?_, ?_, ?_, 0, ?_, ?_⟩
    · simp [positionalText, small, plainText, fraction, padding]
    · simp [some]
      omega
    · rw [List.take_append_drop]
      exact all
    · rw [List.take_append_drop, Nat.pow_zero, Nat.mul_one]
    · rw [List.length_drop]
      omega

theorem negative_of_ofDecimal? {d : Decimal} {x : Binary64}
    (h : Binary64.ofDecimal? d = some x) : x.negative = d.negative := by
  have ofParts {m s : Nat} (h : Binary64.ofParts? d.negative m s = some x) :
      x.negative = d.negative := by
    simp only [Binary64.ofParts?] at h
    split at h
    · exact (Option.some.inj h) ▸ rfl
    · simp at h
  have ofUnits {a b : Nat} (h : Binary64.ofUnits? d.negative a b = some x) :
      x.negative = d.negative := by
    simp only [Binary64.ofUnits?, Option.orElse_eq_orElse, Option.orElse_eq_or,
      Option.or_eq_some_iff] at h
    rcases h with h | ⟨-, h⟩
    · exact ofParts h
    · exact ofParts h
  simp only [Binary64.ofDecimal?] at h
  split at h
  · exact (Option.some.inj h) ▸ rfl
  split at h
  · simp at h
  split at h
  · exact ofUnits h
  · exact ofUnits h

/-- A written number is digits with an optional fraction, and these have the number's value. -/
theorem magnitude_eq (x : Binary64) :
    ∃ whole fraction, sqlFormat.magnitude x = plainText whole fraction ∧
      whole ≠ [] ∧ (∀ c ∈ whole ++ fraction, c.isDigit) ∧
      Binary64.ofDecimal? ⟨x.negative, valueOfDigits (whole ++ fraction), -(fraction.length : Int)⟩ =
        some x := by
  by_cases zero : x.mantissa = 0
  · refine ⟨['0'], [], by simp [Format.magnitude, zero, plainText, sqlFormat], by simp,
      by decide, ?_⟩
    obtain ⟨negative, m, s, canonical⟩ := x
    obtain rfl : m = 0 := zero
    obtain rfl : s = 0 := canonical.2.2.resolve_right (by decide)
    rfl
  have reads := Binary64.ofDecimal?_shortest .away x
  have sign := negative_of_ofDecimal? reads
  revert reads sign
  rcases short : x.shortest .away with ⟨negative, c, e⟩
  rintro reads rfl
  -- Zeros that are dropped, or added up to the point, scale the decimal and nothing else.
  obtain ⟨k, digits⟩ := dropTrailingZeros_append (digitsOf c)
  have value : c = valueOfDigits (dropTrailingZeros (digitsOf c)) * 10 ^ k := by
    conv => lhs; rw [← valueOfDigits_digitsOf c, digits, valueOfDigits_append,
      valueOfDigits_replicate, List.length_replicate, Nat.add_zero]
  have some : dropTrailingZeros (digitsOf c) ≠ [] := by
    intro none
    rw [none] at value
    obtain rfl : c = 0 := by simpa [valueOfDigits] using value
    have isZero : Binary64.zero x.negative = x := by simpa [Binary64.ofDecimal?] using reads
    exact zero (isZero ▸ rfl)
  have all : ∀ d ∈ dropTrailingZeros (digitsOf c), d.isDigit := fun d hd =>
    Nat.isDigit_of_mem_toDigits (by decide) (by decide)
      (show d ∈ digitsOf c by rw [digits]; exact List.mem_append_left _ hd)
  obtain ⟨whole, fraction, text, nonempty, allDigits, k', value', exponent⟩ :=
    positionalText_eq ((digitsOf c).length + e) some all
  refine ⟨whole, fraction, ?_, nonempty, allDigits, ?_⟩
  · simpa [Format.magnitude, zero, short, Format.isPositional, sqlFormat] using text
  · rw [value] at reads
    rw [value', Binary64.ofDecimal?_scale, ← reads, Binary64.ofDecimal?_scale]
    have := congrArg List.length digits
    rw [List.length_append, List.length_replicate] at this
    congr 2
    omega

theorem takeWhile_plainText {whole fraction : List Char} (all : ∀ c ∈ whole, c.isDigit) :
    (plainText whole fraction).takeWhile Char.isDigit = whole := by
  simp only [plainText]
  split
  · exact List.takeWhile_eq_self_iff.2 all
  · rw [List.takeWhile_append_of_pos all]
    simp [Char.isDigit]

theorem dropWhile_plainText {whole fraction : List Char} (all : ∀ c ∈ whole, c.isDigit) :
    (plainText whole fraction).dropWhile Char.isDigit =
      if fraction = [] then [] else '.' :: fraction := by
  simp only [plainText]
  split
  · exact List.dropWhile_eq_nil_iff.2 all
  · rw [List.dropWhile_append_of_pos all]
    simp [Char.isDigit]

theorem splitSign_plainText {whole fraction : List Char} (negative : Bool) (some : whole ≠ [])
    (all : ∀ c ∈ whole, c.isDigit) :
    splitSign (if negative then '-' :: plainText whole fraction else plainText whole fraction) =
      (negative, plainText whole fraction) := by
  cases negative with
  | true => rfl
  | false =>
    obtain ⟨c, rest, rfl⟩ := List.exists_cons_of_ne_nil some
    have digit := all c List.mem_cons_self
    obtain ⟨tail, text⟩ : ∃ tail, plainText (c :: rest) fraction = c :: tail := by
      simp only [plainText]
      split <;> exact ⟨_, rfl⟩
    simp only [Bool.false_eq_true, if_false, text, splitSign]
    split
    · simp_all [Char.isDigit]
    · simp_all [Char.isDigit]
    · rfl

theorem decimal?_plainText {whole fraction : List Char} (negative : Bool) (some : whole ≠ [])
    (all : ∀ c ∈ whole ++ fraction, c.isDigit) :
    decimal? (if negative then '-' :: plainText whole fraction else plainText whole fraction) =
      .some ⟨negative, valueOfDigits (whole ++ fraction), -(fraction.length : Int)⟩ := by
  have allWhole : ∀ c ∈ whole, c.isDigit := fun c hc => all c (List.mem_append_left _ hc)
  have allFraction : ∀ c ∈ fraction, c.isDigit := fun c hc => all c (List.mem_append_right _ hc)
  simp only [decimal?, splitSign_plainText negative some allWhole, takeWhile_plainText allWhole,
    dropWhile_plainText allWhole]
  by_cases none : fraction = []
  · simp [none, some, exponentPart?]
  · simp [none, some, exponentPart?, List.takeWhile_eq_self_iff.2 allFraction,
      List.dropWhile_eq_nil_iff.2 allFraction]

/-- A number written in SQL reads back. -/
theorem ofText?_write (x : Binary64) : Binary64.ofText? (sqlFormat.write x) = some x := by
  obtain ⟨whole, fraction, text, nonempty, digits, value⟩ := magnitude_eq x
  rw [Format.write, text, Binary64.ofText?, decimal?_plainText x.negative nonempty digits]
  exact value

end TableDdl.Number
