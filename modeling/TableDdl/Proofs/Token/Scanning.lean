import TableDdl.Proofs.Number.ReadBack
import TableDdl.Proofs.Token.Scanned

/-!
# Scanning what is written

The text of a token is taken as a whole where the character after it cannot belong to it. The
only text that a sign has an influence on is that of a number.
-/
namespace TableDdl.Scan

open Text Number

variable {keywords : Keywords} {signed : Bool} {c : Char} {cs rest : List Char}

/-- A run of characters up to the first that is none of them. -/
theorem span_append (rest : List Char) {p : Char → Bool} (all : ∀ d ∈ cs, p d = true)
    (stop : ∀ d ∈ rest.head?, p d = false) :
    (cs ++ rest).takeWhile p = cs ∧ (cs ++ rest).dropWhile p = rest := by
  have ended : rest.takeWhile p = [] ∧ rest.dropWhile p = rest := by
    cases rest with
    | nil => exact ⟨rfl, rfl⟩
    | cons d ds =>
      have off : p d = false := stop d rfl
      simp [off]
  rw [List.takeWhile_append_of_pos all, List.dropWhile_append_of_pos all, ended.1, ended.2,
    List.append_nil]
  exact ⟨rfl, rfl⟩

/-- The scanners of tokens and blanks, in their order. -/
theorem scan_eq (slash : c = '/' → cs.head? ≠ some '*') (comment : lineComment? (c :: cs) = none) :
    scan keywords signed (c :: cs) =
      ((word? (c :: cs)).map (fun s => cut (some (wordKind keywords s.1)) s)
        <|> (spaces? (c :: cs)).map (cut none)
        <|> (quotedName? (c :: cs)).map (cut (some .identifier))
        <|> (number? signed (c :: cs)).map (cut (some .number))
        <|> (string? (c :: cs)).map (cut (some .string))
        <|> (operator? (c :: cs)).map (cut (some .operator))) := by
  unfold scan
  split
  · simp_all
  · simp [comment]

theorem lineComment?_eq_none (hash : c ≠ '#') (hyphen : c = '-' → cs.head? ≠ some '-') :
    lineComment? (c :: cs) = none := by
  unfold lineComment?
  split
  · simp_all
  · simp_all
  · rfl

theorem word?_eq_none (start : isWordStart c = false) : word? (c :: cs) = none := by
  simp [word?, start]

theorem spaces?_eq_none (blank : isSpace c = false) : spaces? (c :: cs) = none := by
  simp [spaces?, blank]

theorem quotedName?_eq_none (bare : c ≠ '\x60') : quotedName? (c :: cs) = none := by
  unfold quotedName?
  split
  · rename_i first
    exact absurd (List.cons.inj first).1 bare
  · rfl

theorem string?_eq_none (single : c ≠ '\x27') (double : c ≠ '"') : string? (c :: cs) = none := by
  unfold string?
  split
  · simp_all
  · simp_all
  · rfl

theorem mantissa?_eq_none (h : ∀ d ∈ cs.head?, d.isDigit = false)
    (point : ∀ after, cs = '.' :: after → ∀ d ∈ after.head?, d.isDigit = false) :
    mantissa? cs = none := by
  have noDigits {ds : List Char} (h : ∀ d ∈ ds.head?, d.isDigit = false) :
      digits ds = ([], ds) := by
    obtain ⟨taken, left⟩ := span_append _ (List.forall_mem_nil _) h
    exact Prod.ext taken left
  simp only [mantissa?, noDigits h]
  split
  · simp [noDigits (point _ rfl)]
  · rfl

/-- Neither the first character nor one after a sign starts a number. -/
theorem number?_eq_none (digit : c.isDigit = false)
    (point : c = '.' → ∀ d ∈ cs.head?, d.isDigit = false)
    (sign : c = '+' ∨ c = '-' → ∀ d ∈ cs.head?, d.isDigit = false ∧ d ≠ '.') :
    number? signed (c :: cs) = none := by
  have unsigned : mantissa? (c :: cs) = none := by
    refine mantissa?_eq_none (by simpa using digit) ?_
    rintro after whole
    obtain ⟨rfl, rfl⟩ := List.cons.inj whole
    exact point rfl
  have after (isSign : c = '+' ∨ c = '-') : mantissa? cs = none := by
    refine mantissa?_eq_none (fun d hd => (sign isSign d hd).1) ?_
    rintro after rfl
    exact absurd rfl (sign isSign '.' rfl).2
  have taken : mantissa? (Scan.sign signed (c :: cs)).2 = none := by
    simp only [Scan.sign]
    split
    · rename_i isSign
      exact after (by simpa using (Bool.and_eq_true_iff.1 isSign).2)
    · exact unsigned
  simp [number?, taken]

theorem scan_word (start : isWordStart c = true) (all : ∀ d ∈ cs, isWordPart d = true)
    (stop : ∀ d ∈ rest.head?, isWordPart d = false) :
    scan keywords signed (c :: cs ++ rest) =
      some ⟨some (wordKind keywords (c :: cs)), c :: cs, rest⟩ := by
  have ne {d : Char} (h : isWordStart d = false) : c ≠ d := by
    rintro rfl
    simp [start] at h
  obtain ⟨taken, left⟩ := span_append _ all stop
  rw [List.cons_append, scan_eq (fun h => absurd h (ne (by decide)))
    (lineComment?_eq_none (ne (by decide)) fun h => absurd h (ne (by decide)))]
  simp [word?, start, taken, left, cut]

theorem scan_quotedName {name : List Char} (nonempty : name ≠ []) (bare : '\x60' ∉ name) :
    scan keywords signed ('\x60' :: (name ++ '\x60' :: rest)) =
      some ⟨some .identifier, '\x60' :: (name ++ ['\x60']), rest⟩ := by
  have inside : ∀ d ∈ name, (d != '\x60') = true := fun d hd => by
    have : d ≠ '\x60' := fun same => bare (same ▸ hd)
    simpa using this
  obtain ⟨taken, left⟩ := span_append ('\x60' :: rest) inside (by simp)
  obtain ⟨c, cs, rfl⟩ := List.exists_cons_of_ne_nil nonempty
  rw [scan_eq (fun h => absurd h (by decide))
    (lineComment?_eq_none (by decide) fun h => absurd h (by decide)),
    word?_eq_none (by decide), spaces?_eq_none (by decide)]
  simp only [quotedName?, taken, left]
  simp [cut]

/-- There is no name without characters. -/
theorem scan_emptyName : scan keywords signed ('\x60' :: '\x60' :: rest) = none := by
  rw [scan_eq (fun h => absurd h (by decide))
    (lineComment?_eq_none (by decide) fun h => absurd h (by decide)),
    word?_eq_none (by decide), spaces?_eq_none (by decide),
    number?_eq_none (by decide) (fun h => absurd h (by decide))
      (fun h => absurd h (by decide)),
    string?_eq_none (by decide) (by decide)]
  simp [quotedName?, operator?, doubleOperators, singleOperators]

theorem isWordStart_eq_false_of_isDigit (digit : c.isDigit = true) : isWordStart c = false := by
  have bounds : '0'.toNat ≤ c.toNat ∧ c.toNat ≤ '9'.toNat := by
    simpa [Char.isDigit, UInt32.le_iff_toNat_le] using digit
  have small : c.toNat < 0x80 := Nat.lt_of_le_of_lt bounds.2 (by decide)
  have other : c ≠ '_' := by
    rintro rfl
    simp at digit
  have notAlpha : c.isAlpha = false := by
    have bound : c.toNat ≤ 57 := bounds.2
    rw [← Bool.not_eq_true, Text.isAlpha_iff, Text.isUpper_iff, Text.isLower_iff]
    omega
  simp [isWordStart, isLetter, small, notAlpha, other]

theorem mantissa?_plainText {whole fraction : List Char} (nonempty : whole ≠ [])
    (all : ∀ d ∈ whole ++ fraction, d.isDigit)
    (stop : ∀ d ∈ rest.head?, d.isDigit = false ∧ d ≠ '.') :
    mantissa? (plainText whole fraction ++ rest) = some (plainText whole fraction, rest) := by
  have allWhole : ∀ d ∈ whole, d.isDigit = true := fun d hd => all d (List.mem_append_left _ hd)
  have allFraction : ∀ d ∈ fraction, d.isDigit = true := fun d hd =>
    all d (List.mem_append_right _ hd)
  by_cases none : fraction = []
  · obtain ⟨taken, left⟩ := span_append rest allWhole fun d hd => (stop d hd).1
    have point : ∀ after, rest ≠ '.' :: after := by
      rintro after rfl
      exact (stop '.' rfl).2 rfl
    simp only [mantissa?, digits, plainText, none, if_true, taken, left]
    split
    · simp_all
    · rfl
  · obtain ⟨taken, left⟩ := span_append ('.' :: (fraction ++ rest)) allWhole (by simp)
    obtain ⟨taken', left'⟩ := span_append rest allFraction fun d hd => (stop d hd).1
    simp [mantissa?, digits, plainText, none, taken, left, taken', left']

theorem exponent_eq_nil (stop : ∀ d ∈ rest.head?, d ≠ 'e' ∧ d ≠ 'E') :
    exponent rest = ([], rest) := by
  cases rest with
  | nil => rfl
  | cons d ds =>
    obtain ⟨lower, upper⟩ := stop d rfl
    simp [exponent, lower, upper]

theorem head_plainText {whole fraction : List Char} (nonempty : whole ≠ [])
    (all : ∀ d ∈ whole ++ fraction, d.isDigit) :
    ∃ c cs, plainText whole fraction = c :: cs ∧ c.isDigit = true := by
  obtain ⟨c, cs, rfl⟩ := List.exists_cons_of_ne_nil nonempty
  refine ⟨c, if fraction = [] then cs else cs ++ '.' :: fraction, ?_, all c (by simp)⟩
  unfold plainText
  split <;> rfl

/-- Nothing else starts like a number. -/
theorem scan_of_number? {s : Split}
    (start : (c = '+' ∨ c = '-') ∧ cs.head? ≠ some '-' ∨ c = '.' ∨ c.isDigit = true)
    (number : number? signed (c :: cs) = some s) :
    scan keywords signed (c :: cs) = some ⟨some .number, s.1, s.2⟩ := by
  have other : c ≠ '/' ∧ isWordStart c = false ∧ isSpace c = false ∧ c ≠ '\x60' ∧
      lineComment? (c :: cs) = none := by
    rcases start with ⟨rfl | rfl, single⟩ | rfl | digit
    · exact ⟨by decide, by decide, by decide, by decide,
        lineComment?_eq_none (by decide) fun h => absurd h (by decide)⟩
    · exact ⟨by decide, by decide, by decide, by decide,
        lineComment?_eq_none (by decide) fun _ => single⟩
    · exact ⟨by decide, by decide, by decide, by decide,
        lineComment?_eq_none (by decide) fun h => absurd h (by decide)⟩
    · have other {x : Char} (h : x.isDigit = false) : c ≠ x := by
        rintro rfl
        simp [digit] at h
      refine ⟨other (by decide), isWordStart_eq_false_of_isDigit digit, ?_, other (by decide),
        lineComment?_eq_none (other (by decide)) fun h => absurd h (other (by decide))⟩
      simp [isSpace, other (x := ' ') (by decide), other (x := '\t') (by decide),
        other (x := '\r') (by decide), other (x := '\n') (by decide)]
  obtain ⟨slash, word, blank, bare, comment⟩ := other
  rw [scan_eq (fun h => absurd h slash) comment, word?_eq_none word, spaces?_eq_none blank,
    quotedName?_eq_none bare, number]
  simp [cut]

/-- A number that starts with a hyphen needs to be allowed a sign. -/
theorem scan_number {whole fraction : List Char} {negative : Bool} (nonempty : whole ≠ [])
    (all : ∀ d ∈ whole ++ fraction, d.isDigit) (sign : negative = true → signed = true)
    (stop : ∀ d ∈ rest.head?, d.isDigit = false ∧ d ≠ '.' ∧ d ≠ 'e' ∧ d ≠ 'E') :
    let text := if negative then '-' :: plainText whole fraction else plainText whole fraction
    scan keywords signed (text ++ rest) = some ⟨some .number, text, rest⟩ := by
  intro text
  have mantissa := mantissa?_plainText nonempty all fun d hd => ⟨(stop d hd).1, (stop d hd).2.1⟩
  have power := exponent_eq_nil fun d hd => (stop d hd).2.2
  obtain ⟨c, cs, first, digit⟩ := head_plainText nonempty all
  have ne {d : Char} (h : d.isDigit = false) : c ≠ d := by
    rintro rfl
    simp [digit] at h
  have number : number? signed (text ++ rest) = some (text, rest) := by
    have taken : Scan.sign signed (text ++ rest) =
        (if negative then ['-'] else [], plainText whole fraction ++ rest) := by
      cases negative with
      | true => simp [text, Scan.sign, sign rfl]
      | false =>
        simp [text, Scan.sign, first, ne (d := '+') (by decide), ne (d := '-') (by decide)]
    simp only [number?, taken, mantissa, Option.map_some, power, List.append_nil]
    cases negative <;> rfl
  cases negative with
  | true =>
    refine scan_of_number? (.inl ⟨.inr rfl, ?_⟩) number
    simp [first, ne (d := '-') (by decide)]
  | false =>
    have whole : text ++ rest = c :: (cs ++ rest) := by simp [text, first]
    rw [whole] at number ⊢
    exact scan_of_number? (.inr (.inr digit)) number

theorem scan_string {quote : Char} {content : List Char}
    (isQuote : quote = '\x27' ∨ quote = '"') (free : quote ∉ content) :
    scan keywords signed (quote :: (content ++ quote :: rest)) =
      some ⟨some .string, quote :: (content ++ [quote]), rest⟩ := by
  have inside : ∀ d ∈ content, (d != quote) = true := fun d hd => by
    have : d ≠ quote := fun same => free (same ▸ hd)
    simpa using this
  obtain ⟨taken, left⟩ := span_append (quote :: rest) inside (by simp)
  have string : string? (quote :: (content ++ quote :: rest)) =
      some (quote :: (content ++ [quote]), rest) := by
    rcases isQuote with rfl | rfl <;> simp only [string?, closedBy?, taken, left] <;> simp
  have other : quote ≠ '/' ∧ quote ≠ '#' ∧ quote ≠ '-' ∧ isWordStart quote = false ∧
      isSpace quote = false ∧ quote ≠ '\x60' ∧ quote.isDigit = false ∧ quote ≠ '.' ∧
      quote ≠ '+' := by
    rcases isQuote with rfl | rfl <;> decide
  obtain ⟨slash, hash, hyphen, word, blank, bare, digit, point, plus⟩ := other
  rw [scan_eq (fun h => absurd h slash)
    (lineComment?_eq_none hash fun h => absurd h hyphen), word?_eq_none word,
    spaces?_eq_none blank, quotedName?_eq_none bare,
    number?_eq_none digit (fun h => absurd h point)
      fun h => absurd h (by simp [plus, hyphen]), string]
  simp [cut]

/-- The first characters of operators. -/
def operatorStarts : List Char := '!' :: '|' :: singleOperators

theorem scan_operator {s : Split} (start : c ∈ operatorStarts)
    (slash : c = '/' → cs.head? ≠ some '*') (hyphen : c = '-' → cs.head? ≠ some '-')
    (number : number? signed (c :: cs) = none) (operator : operator? (c :: cs) = some s) :
    scan keywords signed (c :: cs) = some ⟨some .operator, s.1, s.2⟩ := by
  have other : ∀ c ∈ operatorStarts, c ≠ '#' ∧ isWordStart c = false ∧ isSpace c = false ∧
      c ≠ '\x60' ∧ c ≠ '\x27' ∧ c ≠ '"' := by decide
  obtain ⟨hash, word, blank, bare, single, double⟩ := other c start
  rw [scan_eq slash (lineComment?_eq_none hash hyphen), word?_eq_none word, spaces?_eq_none blank,
    quotedName?_eq_none bare, number, string?_eq_none single double, operator]
  simp [cut]

/-- An operator of two characters begins with one that begins no other token. -/
theorem exists_of_mem_doubleOperators {op : List Char} (mem : op ∈ doubleOperators) :
    ∃ a b, op = [a, b] ∧ (a ∈ operatorStarts ∧ a.isDigit = false ∧
      a ∉ ['/', '-', '+', '.', '(', ',']) ∧ b ∈ ['>', '=', '|'] := by
  simp only [doubleOperators, List.mem_cons, List.not_mem_nil, or_false] at mem
  rcases mem with rfl | rfl | rfl | rfl | rfl <;> exact ⟨_, _, rfl, by decide⟩

theorem scan_double {op : List Char} (mem : op ∈ doubleOperators) :
    scan keywords signed (op ++ rest) = some ⟨some .operator, op, rest⟩ := by
  obtain ⟨a, b, rfl, ⟨start, digit, other⟩, -⟩ := exists_of_mem_doubleOperators mem
  simp only [List.mem_cons, List.not_mem_nil, or_false, not_or] at other
  obtain ⟨slash, hyphen, plus, point, -⟩ := other
  refine scan_operator (s := ([a, b], rest)) start (fun h => absurd h slash)
    (fun h => absurd h hyphen) (number?_eq_none digit (fun h => absurd h point) ?_) ?_
  · rintro (h | h)
    · exact absurd h plus
    · exact absurd h hyphen
  · simp [operator?, mem]

end TableDdl.Scan

namespace TableDdl

open Scan

/-- Blanks in front are left out, one at a time. -/
theorem tokensFrom_space {keywords : Keywords} {signed : Bool} {p : Position} {c : Char}
    {cs : List Char} (blank : isSpace c = true) :
    tokensFrom keywords signed p (c :: cs) = tokensFrom keywords signed (p.next c) cs := by
  have taken {c : Char} (blank : isSpace c = true) (p : Position) (cs : List Char) :
      tokensFrom keywords signed p (c :: cs) =
        tokensFrom keywords signed (p.after (c :: cs.takeWhile isSpace)) (cs.dropWhile isSpace) := by
    have other : c ≠ '/' ∧ c ≠ '#' ∧ c ≠ '-' ∧ isWordStart c = false := by
      have mem : c ∈ [' ', '\t', '\r', '\n'] := by simpa [isSpace, or_assoc] using blank
      clear blank
      revert mem c
      decide
    obtain ⟨slash, hash, hyphen, word⟩ := other
    have scanned : scan keywords signed (c :: cs) =
        some ⟨none, c :: cs.takeWhile isSpace, cs.dropWhile isSpace⟩ := by
      rw [scan_eq (fun h => absurd h slash) (lineComment?_eq_none hash fun h => absurd h hyphen),
        word?_eq_none word]
      simp [spaces?, blank, cut]
    rw [tokensFrom_of_scan_eq_some scanned]
  rw [taken blank]
  cases cs with
  | nil => simp
  | cons d ds =>
    by_cases more : isSpace d = true
    · rw [taken more]
      simp [more, Position.after]
    · simp [more, Position.after]

end TableDdl
