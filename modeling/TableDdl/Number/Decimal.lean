/-!
# Decimal numbers in text

Counts and lengths are natural numbers. A written one is its decimal digits; a read one may start
with a plus sign and with zeros. A number token is an optional sign, digits with an optional
fraction and an optional exponent, and stands for a whole coefficient times a power of ten.
-/
namespace TableDdl.Number

def digitValue (c : Char) : Nat := c.toNat - '0'.toNat

def valueOfDigits (digits : List Char) : Nat :=
  digits.foldl (fun n c => 10 * n + digitValue c) 0

def natural? (text : List Char) : Option Nat :=
  let digits := match text with
    | '+' :: rest => rest
    | _ => text
  if digits.isEmpty || !digits.all Char.isDigit then none else some (valueOfDigits digits)

def natural32? (text : List Char) : Option UInt32 :=
  (natural? text).bind fun n =>
    if h : n < UInt32.size then some (UInt32.ofNatLT n h) else none

def natural64? (text : List Char) : Option UInt64 :=
  (natural? text).bind fun n =>
    if h : n < UInt64.size then some (UInt64.ofNatLT n h) else none

def digitsOf (n : Nat) : List Char := Nat.toDigits 10 n

theorem digitValue_digitChar {d : Nat} (h : d < 10) : digitValue d.digitChar = d := by
  revert d
  decide

theorem valueOfDigits_digitsOf (n : Nat) : valueOfDigits (digitsOf n) = n := by
  induction n using Nat.strongRecOn with
  | ind n ih =>
    have last : n % 10 < 10 := Nat.mod_lt n (by decide)
    rcases Nat.lt_or_ge n 10 with small | large
    · simp [digitsOf, Nat.toDigits_of_lt_base small, valueOfDigits, digitValue_digitChar small]
    · have division := Nat.toDigits_append_toDigits (b := 10) (n := n / 10) (d := n % 10)
        (by decide) (by omega) last
      rw [Nat.div_add_mod, Nat.toDigits_of_lt_base last] at division
      have front : valueOfDigits (Nat.toDigits 10 (n / 10)) = n / 10 := ih (n / 10) (by omega)
      rw [digitsOf, ← division]
      simp only [valueOfDigits, List.foldl_append, List.foldl_cons, List.foldl_nil] at front ⊢
      rw [front, digitValue_digitChar last, Nat.div_add_mod]

/-- A written number reads back. -/
theorem natural?_digitsOf (n : Nat) : natural? (digitsOf n) = some n := by
  have digits : (digitsOf n).all Char.isDigit = true :=
    List.all_eq_true.2 fun c h => Nat.isDigit_of_mem_toDigits (by decide) (by decide) h
  unfold natural?
  split
  · rename_i rest h
    rw [h] at digits
    simp [Char.isDigit] at digits
  · have nonempty : (digitsOf n).isEmpty = false := by simp [digitsOf, Nat.toDigits_ne_nil]
    simp only [nonempty, digits, valueOfDigits_digitsOf]
    rfl

theorem natural32?_digitsOf (n : UInt32) : natural32? (digitsOf n.toNat) = some n := by
  simp [natural32?, natural?_digitsOf, n.toNat_lt]

theorem natural64?_digitsOf (n : UInt64) : natural64? (digitsOf n.toNat) = some n := by
  simp [natural64?, natural?_digitsOf, n.toNat_lt]

/-- The number `± coefficient · 10 ^ exponent`. -/
structure Decimal where
  negative : Bool
  coefficient : Nat
  exponent : Int
deriving DecidableEq

def splitSign : List Char → Bool × List Char
  | '-' :: rest => (true, rest)
  | '+' :: rest => (false, rest)
  | text => (false, text)

/-- The whole number after an `e` or `E`, which may have a sign. -/
def signedExponent? (text : List Char) : Option Int :=
  let (negative, digits) := splitSign text
  if digits.isEmpty || !digits.all Char.isDigit then none
  else some (if negative then -(valueOfDigits digits : Int) else valueOfDigits digits)

/-- The exponent part after the digits, zero where there is none. -/
def exponentPart? : List Char → Option Int
  | [] => some 0
  | c :: rest => if c = 'e' ∨ c = 'E' then signedExponent? rest else none

def decimal? (text : List Char) : Option Decimal :=
  let (negative, unsigned) := splitSign text
  let whole := unsigned.takeWhile Char.isDigit
  let (fraction, tail) := match unsigned.dropWhile Char.isDigit with
    | '.' :: rest => (rest.takeWhile Char.isDigit, rest.dropWhile Char.isDigit)
    | rest => ([], rest)
  if whole.isEmpty && fraction.isEmpty then none
  else (exponentPart? tail).map fun e =>
    ⟨negative, valueOfDigits (whole ++ fraction), e - fraction.length⟩

end TableDdl.Number
