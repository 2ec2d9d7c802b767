import TableDdl.Number.Shortest

/-!
# Written numbers

A number is written with its shortest digits. The outputs of the library differ in when they
turn to an exponent, how they write it, and whether a whole number shows a fraction.
-/
namespace TableDdl.Number

structure Format where
  tie : Tie
  /-- A whole number in positional notation ends in `.0`. -/
  marksWhole : Bool
  /-- The exponents of the first digit, from and up to, that are written positionally;
  without bounds all are. -/
  positional : Option (Int × Int)
  /-- A positive exponent has a plus sign. -/
  marksExponent : Bool

def dropTrailingZeros (digits : List Char) : List Char :=
  (digits.reverse.dropWhile (· == '0')).reverse

/-- The digits `0.d₁d₂… · 10 ^ point` without an exponent. -/
def positionalText (marksWhole : Bool) (digits : List Char) (point : Int) : List Char :=
  if point ≤ 0 then
    '0' :: '.' :: List.replicate (-point).toNat '0' ++ digits
  else
    let whole := digits.take point.toNat
    let fraction := digits.drop point.toNat
    let padded := whole ++ List.replicate (point.toNat - digits.length) '0'
    if fraction.isEmpty then
      if marksWhole then padded ++ ['.', '0'] else padded
    else padded ++ '.' :: fraction

/-- One digit before the point and the exponent after an `e`. -/
def exponentText (marksExponent : Bool) (digits : List Char) (exponent : Int) : List Char :=
  let leading := match digits with
    | first :: second :: rest => first :: '.' :: second :: rest
    | _ => digits
  let sign := if exponent < 0 then ['-'] else if marksExponent then ['+'] else []
  leading ++ 'e' :: sign ++ digitsOf exponent.natAbs

def Format.isPositional (f : Format) (exponent : Int) : Bool :=
  match f.positional with
  | none => true
  | some (low, high) => low ≤ exponent && exponent < high

def Format.magnitude (f : Format) (x : Binary64) : List Char :=
  if x.mantissa = 0 then if f.marksWhole then ['0', '.', '0'] else ['0']
  else
    let d := x.shortest f.tie
    let digits := digitsOf d.coefficient
    let point := digits.length + d.exponent
    let digits := dropTrailingZeros digits
    if f.isPositional (point - 1) then positionalText f.marksWhole digits point
    else exponentText f.marksExponent digits (point - 1)

def Format.write (f : Format) (x : Binary64) : List Char :=
  if x.negative then '-' :: f.magnitude x else f.magnitude x

end TableDdl.Number
