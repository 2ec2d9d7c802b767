import TableDdl.Proofs.Token.Scanning

/-!
# Texts that go on

What stands at the front of a text does not depend on what the text goes on with, where that
begins with a character which no token looks ahead for. Main statement: then the same is taken
from the front of the shorter text and of the longer one, as long as they agree on comments that
run to the end of a line.
-/
namespace TableDdl.Scan

open Text

variable {keywords : Keywords} {signed : Bool} {c : Char} {cs x taken rest : List Char}

/-- What is left goes on with `x`. -/
def goOn (x : List Char) (s : Split) : Split := (s.1, s.2 ++ x)

/-- No token that stands before the text looks at its first character. -/
def Stops (x : List Char) : Prop :=
  ∀ d ∈ x.head?, isWordPart d = false ∧ d ∉ ['.', '+', '-', '*', '>', '=', '|']

/-- The scanner takes the same from the text where it goes on with `x`. -/
def Steady (x : List Char) (scanner : List Char → Option Split) (cs : List Char) : Prop :=
  scanner (cs ++ x) = (scanner cs).map (goOn x)

@[simp] theorem map_goOn_nil (answer : Option Split) : answer.map (goOn []) = answer := by
  cases answer <;> simp [goOn]

theorem stops_nil : Stops [] := nofun

theorem isWordPart_eq_true_of_isDigit (digit : c.isDigit = true) : isWordPart c = true := by
  have bounds : '0'.toNat ≤ c.toNat ∧ c.toNat ≤ '9'.toNat := by
    simpa [Char.isDigit, UInt32.le_iff_toNat_le] using digit
  have small : c.toNat < 0x80 := Nat.lt_of_le_of_lt bounds.2 (by decide)
  simp [isWordPart, isNumeral, small, digit]

namespace Stops

theorem notWord (h : Stops x) (d : Char) (hd : d ∈ x.head?) : isWordPart d = false := (h d hd).1

theorem notDigit (h : Stops x) (d : Char) (hd : d ∈ x.head?) : d.isDigit = false := by
  cases digit : d.isDigit with
  | false => rfl
  | true => simpa [isWordPart_eq_true_of_isDigit digit] using h.notWord d hd

theorem head_ne (h : Stops x) {d : Char}
    (looked : isWordPart d = true ∨ d ∈ ['.', '+', '-', '*', '>', '=', '|']) :
    x.head? ≠ some d := by
  intro first
  obtain ⟨word, other⟩ := h d first
  rcases looked with looked | looked
  · rw [looked] at word
    cases word
  · exact other looked

end Stops

/-- A run of characters that ends before `x` or earlier. -/
theorem span_goOn {p : Char → Bool} (cs : List Char) (stop : ∀ d ∈ x.head?, p d = false) :
    (cs ++ x).takeWhile p = cs.takeWhile p ∧ (cs ++ x).dropWhile p = cs.dropWhile p ++ x := by
  induction cs with
  | nil => simpa using span_append x (List.forall_mem_nil _) stop
  | cons d cs ih =>
    by_cases h : p d = true
    · simp [h, ih]
    · simp [h]

theorem word?_steady (stops : Stops x) : Steady x word? (c :: cs) := by
  obtain ⟨taken, left⟩ := span_goOn cs stops.notWord
  simp only [Steady, List.cons_append, word?, taken, left]
  split <;> rfl

theorem digits_goOn (stops : Stops x) (cs : List Char) : digits (cs ++ x) = goOn x (digits cs) := by
  obtain ⟨taken, left⟩ := span_goOn cs stops.notDigit
  exact Prod.ext taken left

theorem sign_goOn (stops : Stops x) (allowed : Bool) (cs : List Char) :
    sign allowed (cs ++ x) = goOn x (sign allowed cs) := by
  cases cs with
  | nil =>
    cases x with
    | nil => rfl
    | cons d ds =>
      have plus : d ≠ '+' := fun h => stops.head_ne (.inr (by decide)) (congrArg some h)
      have minus : d ≠ '-' := fun h => stops.head_ne (.inr (by decide)) (congrArg some h)
      simp [sign, goOn, plus, minus]
  | cons d cs =>
    simp only [List.cons_append, sign]
    split <;> rfl

/-- Without a point after its first digits, a number ends with them. -/
theorem mantissa?_of_no_point (h : ∀ after, (digits cs).2 ≠ '.' :: after) :
    mantissa? cs = if (digits cs).1.isEmpty then none else some (digits cs) := by
  simp only [mantissa?]
  generalize digits cs = s at h
  obtain ⟨whole, _ | ⟨d, ds⟩⟩ := s
  · simp
  · have point : d ≠ '.' := fun same => h ds (by rw [same])
    simp

theorem mantissa?_of_point {after : List Char} (h : (digits cs).2 = '.' :: after) :
    mantissa? cs =
      if (digits after).1.isEmpty then
        if (digits cs).1.isEmpty then none else some (digits cs)
      else some ((digits cs).1 ++ '.' :: (digits after).1, (digits after).2) := by
  simp only [mantissa?, h]
  by_cases none : (digits after).1.isEmpty = true
  · simp [none, ← h]
  · simp [none]

theorem mantissa?_steady (stops : Stops x) (cs : List Char) : Steady x mantissa? cs := by
  have whole := digits_goOn stops cs
  by_cases point : ∃ after, (digits cs).2 = '.' :: after
  · obtain ⟨after, point⟩ := point
    have longer : (digits (cs ++ x)).2 = '.' :: (after ++ x) := by simp [whole, goOn, point]
    rw [Steady, mantissa?_of_point point, mantissa?_of_point longer, whole, digits_goOn stops]
    by_cases fraction : (digits after).1.isEmpty = true <;>
      by_cases empty : (digits cs).1.isEmpty = true <;> simp [goOn, fraction, empty]
  · have ends : ∀ after, (digits cs).2 ≠ '.' :: after := not_exists.1 point
    have longer : ∀ after, (digits (cs ++ x)).2 ≠ '.' :: after := by
      intro after same
      simp only [whole, goOn] at same
      cases left : (digits cs).2 with
      | nil =>
        rw [left, List.nil_append] at same
        exact stops.head_ne (.inr (by decide)) (congrArg List.head? same)
      | cons d ds =>
        rw [left, List.cons_append, List.cons.injEq] at same
        exact ends ds (by rw [left, same.1])
    rw [Steady, mantissa?_of_no_point ends, mantissa?_of_no_point longer, whole]
    by_cases empty : (digits cs).1.isEmpty = true <;> simp [goOn, empty]

theorem exponent_goOn (stops : Stops x) (cs : List Char) :
    exponent (cs ++ x) = goOn x (exponent cs) := by
  cases cs with
  | nil =>
    have lower := stops.head_ne (d := 'e') (.inl (by decide))
    have upper := stops.head_ne (d := 'E') (.inl (by decide))
    have none : exponent x = ([], x) := exponent_eq_nil fun d hd =>
      ⟨fun h => lower (h ▸ hd), fun h => upper (h ▸ hd)⟩
    simpa [goOn, exponent] using none
  | cons d cs =>
    simp only [List.cons_append, exponent, sign_goOn stops, goOn, digits_goOn stops]
    split
    · split <;> rfl
    · rfl

theorem number?_steady (stops : Stops x) (signed : Bool) (cs : List Char) :
    Steady x (number? signed) cs := by
  have mantissa : mantissa? ((sign signed cs).2 ++ x) = _ := mantissa?_steady stops _
  simp only [Steady, number?, sign_goOn stops, goOn] at mantissa ⊢
  rw [mantissa, Option.map_map, Option.map_map]
  refine Option.map_congr fun s _ => ?_
  simp [goOn, exponent_goOn stops]

theorem operator?_steady (stops : Stops x) : Steady x operator? (c :: cs) := by
  cases cs with
  | nil =>
    cases x with
    | nil => simp [Steady]
    | cons d ds =>
      have single : [c, d] ∉ doubleOperators := by
        intro double
        obtain ⟨a, b, same, -, second⟩ := exists_of_mem_doubleOperators double
        obtain ⟨rfl, rfl⟩ : c = a ∧ d = b := by simpa using same
        have looked : ∀ e ∈ ['>', '=', '|'], e ∈ ['.', '+', '-', '*', '>', '=', '|'] := by decide
        exact stops.head_ne (.inr (looked d second)) rfl
      simp only [Steady, List.cons_append, List.nil_append, operator?]
      by_cases known : singleOperators.contains c = true <;> simp [single, goOn]
  | cons d cs =>
    simp only [Steady, List.cons_append, operator?]
    split
    · rfl
    · split <;> rfl

theorem operator?_eq_none (start : c ∉ operatorStarts) : operator? (c :: cs) = none := by
  have single : c ∉ singleOperators := fun h =>
    start (List.mem_cons_of_mem _ (List.mem_cons_of_mem _ h))
  cases cs with
  | nil => simp [operator?, single]
  | cons d cs =>
    have double : [c, d] ∉ doubleOperators := by
      intro double
      obtain ⟨a, b, same, ⟨first, -, -⟩, -⟩ := exists_of_mem_doubleOperators double
      obtain ⟨rfl, -⟩ : c = a ∧ d = b := by simpa using same
      exact start first
    simp [operator?, single, double]

/-- What has a closing mark: a quoted name, a literal or a block comment. -/
def enclosed? : List Char → Option Cut
  | '/' :: '*' :: cs =>
    (commentEnd? cs).map fun (taken, rest) => ⟨none, '/' :: '*' :: taken, rest⟩
  | '\x60' :: cs => (quotedName? ('\x60' :: cs)).map (cut (some .identifier))
  | '\x27' :: cs => (string? ('\x27' :: cs)).map (cut (some .string))
  | '"' :: cs => (string? ('"' :: cs)).map (cut (some .string))
  | _ => none

/-- The text begins with an opening mark. -/
def Encloses (c : Char) (cs : List Char) : Prop :=
  c ∈ ['\x60', '\x27', '"'] ∨ c = '/' ∧ cs.head? = some '*'

/-- Nothing else starts with an opening mark. -/
theorem scan_of_encloses (h : Encloses c cs) :
    scan keywords signed (c :: cs) = enclosed? (c :: cs) := by
  rcases h with mark | ⟨rfl, star⟩
  · have other : ∀ c ∈ ['\x60', '\x27', '"'], c ≠ '/' ∧ c ≠ '#' ∧ c ≠ '-' ∧ isWordStart c = false ∧
        isSpace c = false ∧ c.isDigit = false ∧ c ≠ '.' ∧ c ≠ '+' ∧ c ∉ operatorStarts := by
      decide
    obtain ⟨slash, hash, hyphen, word, blank, digit, point, plus, operator⟩ := other c mark
    have number : number? signed (c :: cs) = none :=
      number?_eq_none digit (fun h => absurd h point) fun h => absurd h (by simp [plus, hyphen])
    have operator : operator? (c :: cs) = none := operator?_eq_none operator
    rw [scan_eq (fun h => absurd h slash) (lineComment?_eq_none hash fun h => absurd h hyphen),
      word?_eq_none word, spaces?_eq_none blank, number, operator]
    simp only [List.mem_cons, List.not_mem_nil, or_false] at mark
    rcases mark with rfl | rfl | rfl
    · simp [enclosed?, string?]
    · simp [enclosed?, quotedName?]
    · simp [enclosed?, quotedName?]
  · obtain ⟨rest, rfl⟩ : ∃ rest, cs = '*' :: rest := by
      cases cs with
      | nil => cases star
      | cons d ds => exact ⟨ds, by rw [Option.some.inj star]⟩
    rfl

/-- Without an opening mark, a text is scanned for what no mark closes. -/
theorem scan_of_not_encloses (h : ¬ Encloses c cs) :
    scan keywords signed (c :: cs) =
      ((lineComment? (c :: cs)).map (cut none)
        <|> (word? (c :: cs)).map (fun s => cut (some (wordKind keywords s.1)) s)
        <|> (spaces? (c :: cs)).map (cut none)
        <|> (number? signed (c :: cs)).map (cut (some .number))
        <|> (operator? (c :: cs)).map (cut (some .operator))) := by
  obtain ⟨mark, star⟩ := not_or.1 h
  simp only [List.mem_cons, List.not_mem_nil, or_false, not_or] at mark
  obtain ⟨bare, single, double⟩ := mark
  unfold scan
  split
  · rename_i same
    obtain ⟨rfl, rfl⟩ := List.cons.inj same
    exact absurd ⟨rfl, rfl⟩ star
  · rw [quotedName?_eq_none bare, string?_eq_none single double]
    simp

theorem commentEnd?_retake {answer : Split} (found : commentEnd? cs = some answer) :
    (∀ w, commentEnd? (answer.1 ++ w) = some (answer.1, w)) ∧
      ∃ body, answer.1 = body ++ ['*', '/'] := by
  fun_induction commentEnd? cs generalizing answer with
  | case1 => cases found
  | case2 cs =>
    obtain rfl := Option.some.inj found
    exact ⟨fun _ => rfl, [], rfl⟩
  | case3 c cs other ih =>
    obtain ⟨⟨taken, rest⟩, later, rfl⟩ := Option.map_eq_some_iff.1 found
    obtain ⟨again, body, ends⟩ := ih later
    have whole := commentEnd?_append cs taken rest later
    refine ⟨fun w => ?_, c :: body, by rw [List.cons_append, ← ends]⟩
    have first : ∀ more, c = '*' → taken ++ w = '/' :: more → False := by
      intro more star slash
      cases taken with
      | nil => simp at ends
      | cons d ds =>
        obtain ⟨rfl, -⟩ := List.cons.inj slash
        exact other (ds ++ rest) star whole.symm
    rw [List.cons_append, commentEnd?.eq_3 c _ first, again]
    rfl

/-- What a quoted name looks like. -/
theorem exists_of_quotedName? (found : quotedName? cs = some (taken, rest)) :
    ∃ name, taken = '\x60' :: (name ++ ['\x60']) ∧ name ≠ [] ∧ '\x60' ∉ name := by
  have sound : Token.Sound Keywords.mysql ⟨.identifier, String.ofList taken, .start⟩ :=
    sound_of_quotedName? found
  rcases sound with ⟨⟨c, more, whole, start, -⟩, -⟩ | ⟨name, whole, shape⟩
  · have front := (quotedName?_divides cs taken rest found).1
    rw [String.toList_ofList] at whole
    subst whole front
    have bare := isWordPart_ne (.inl start)
    simp [quotedName?_eq_none bare] at found
  · exact ⟨name, by simpa using whole, shape⟩

theorem exists_of_string? (found : string? cs = some (taken, rest)) :
    ∃ quote content, (quote = '\x27' ∨ quote = '"') ∧ taken = quote :: (content ++ [quote]) ∧
      quote ∉ content := by
  have sound : Token.Sound Keywords.mysql ⟨.string, String.ofList taken, .start⟩ := by
    unfold string? at found
    split at found
    · exact sound_of_closedBy? (.inl rfl) found
    · exact sound_of_closedBy? (.inr rfl) found
    · cases found
  obtain ⟨quote, content, isQuote, whole, free⟩ := sound
  exact ⟨quote, content, isQuote, by simpa using whole, free⟩

/-- Up to its closing mark, the text is scanned in the same way whatever follows the mark. -/
theorem enclosed?_retake {k : Option Kind} (found : enclosed? cs = some ⟨k, taken, rest⟩) :
    (∀ w, enclosed? (taken ++ w) = some ⟨k, taken, w⟩) ∧
      ∃ body e, taken = body ++ [e] ∧ e ∈ ['\x60', '\x27', '"', '/'] := by
  have literal {more : List Char} (isLiteral : (string? more).map (cut (some .string)) =
      some ⟨k, taken, rest⟩) : (∀ w, enclosed? (taken ++ w) = some ⟨k, taken, w⟩) ∧
        ∃ body e, taken = body ++ [e] ∧ e ∈ ['\x60', '\x27', '"', '/'] := by
    obtain ⟨⟨_, _⟩, string, same⟩ := Option.map_eq_some_iff.1 isLiteral
    obtain ⟨rfl, rfl, rfl⟩ := Cut.mk.inj same
    obtain ⟨quote, content, isQuote, whole, free⟩ := exists_of_string? string
    refine ⟨fun w => ?_, quote :: content, quote, whole, by rcases isQuote with rfl | rfl <;> simp⟩
    have again : scan Keywords.mysql true (quote :: (content ++ quote :: w)) = some _ :=
      scan_string isQuote free
    rw [scan_of_encloses (.inl (by rcases isQuote with rfl | rfl <;> simp))] at again
    simpa [whole] using again
  unfold enclosed? at found
  split at found
  · obtain ⟨s, block, same⟩ := Option.map_eq_some_iff.1 found
    obtain ⟨rfl, rfl, rfl⟩ := Cut.mk.inj same
    obtain ⟨again, body, ends⟩ := commentEnd?_retake block
    refine ⟨fun w => ?_, '/' :: '*' :: body ++ ['*'], '/', by simp [ends], by simp⟩
    simp [enclosed?, again]
  · obtain ⟨⟨_, _⟩, quoted, same⟩ := Option.map_eq_some_iff.1 found
    obtain ⟨rfl, rfl, rfl⟩ := Cut.mk.inj same
    obtain ⟨name, whole, nonempty, bare⟩ := exists_of_quotedName? quoted
    refine ⟨fun w => ?_, '\x60' :: name, '\x60', whole, by simp⟩
    have again : scan Keywords.mysql true ('\x60' :: (name ++ '\x60' :: w)) = some _ :=
      scan_quotedName nonempty bare
    rw [scan_of_encloses (.inl (by simp))] at again
    simpa [whole] using again
  · exact literal found
  · exact literal found
  · cases found

/-- What is left of a cut goes on with `x`. -/
def Cut.goOn (c : Cut) (x : List Char) : Cut := { c with rest := c.rest ++ x }

/-- The scanners that look past what they take are not led astray by `x`. -/
structure Steadily (x cs : List Char) : Prop where
  comment : Steady x lineComment? cs
  word : Steady x word? cs
  number : ∀ signed, Steady x (number? signed) cs
  operator : Steady x operator? cs
  slash : cs = ['/'] → x.head? ≠ some '*'

theorem Stops.steadily (stops : Stops x) (comment : Steady x lineComment? (c :: cs)) :
    Steadily x (c :: cs) where
  comment := comment
  word := word?_steady stops
  number signed := number?_steady stops signed _
  operator := operator?_steady stops
  slash _ := stops.head_ne (.inr (by decide))

theorem Steadily.encloses_iff (h : Steadily x (c :: cs)) :
    Encloses c (cs ++ x) ↔ Encloses c cs := by
  refine or_congr_right (and_congr_right fun slash => ?_)
  cases cs with
  | nil => simp [h.slash (by rw [slash])]
  | cons d ds => rfl

/-- A text that starts with something of its own is cut as if it did not go on. -/
theorem scan_goOn_iff (h : Steadily x (c :: cs)) (solid : isSpace c = false)
    {kind : Option Kind} :
    scan keywords signed (c :: cs ++ x) = some ⟨kind, taken, rest ++ x⟩ ↔
      scan keywords signed (c :: cs) = some ⟨kind, taken, rest⟩ := by
  -- What begins with an opening mark ends at its closing mark. All other scanners look only at what
  -- comes right behind the text.
  by_cases mark : Encloses c cs
  · have longer : Encloses c (cs ++ x) := h.encloses_iff.2 mark
    rw [List.cons_append, scan_of_encloses longer, scan_of_encloses mark]
    constructor
    · intro found
      have scanned : scan keywords signed (c :: (cs ++ x)) = some ⟨kind, taken, rest ++ x⟩ := by
        rw [scan_of_encloses longer, found]
      have whole := (scan_divides scanned).1
      rw [← List.append_assoc, ← List.cons_append] at whole
      rw [← List.append_cancel_right whole]
      exact (enclosed?_retake found).1 rest
    · intro found
      have scanned : scan keywords signed (c :: cs) = some ⟨kind, taken, rest⟩ := by
        rw [scan_of_encloses mark, found]
      rw [← List.cons_append, ← (scan_divides scanned).1, List.append_assoc]
      exact (enclosed?_retake found).1 (rest ++ x)
  · have longer : ¬ Encloses c (cs ++ x) := fun h' => mark (h.encloses_iff.1 h')
    have spaces (more : List Char) : spaces? (c :: more) = none := spaces?_eq_none solid
    have all : scan keywords signed (c :: cs ++ x) =
        (scan keywords signed (c :: cs)).map (Cut.goOn · x) := by
      have comment := h.comment
      have word := h.word
      have number := h.number signed
      have operator := h.operator
      simp only [Steady, List.cons_append] at comment word number operator
      rw [List.cons_append, scan_of_not_encloses longer, scan_of_not_encloses mark, spaces, spaces,
        comment, word, number, operator]
      simp only [Option.orElse_eq_orElse, Option.orElse_eq_or, Option.map_or, Option.map_map]
      rfl
    rw [all]
    cases scan keywords signed (c :: cs) with
    | none => simp
    | some found =>
      obtain ⟨k, t, r⟩ := found
      simp [Cut.goOn]

end TableDdl.Scan
