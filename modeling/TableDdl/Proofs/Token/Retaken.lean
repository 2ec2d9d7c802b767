import TableDdl.Proofs.Token.Continued

/-!
# Tokens taken again

The text of a token is taken as the same token wherever it stands, if the character after it
belongs to no token before it. For a number this goes part by part: its sign, its digits with a
point or none, and its exponent.
-/
namespace TableDdl.Scan

open Text

variable {keywords : Keywords} {signed : Bool} {c : Char}
  {cs x taken rest whole fraction : List Char}

theorem digits_of_all (all : ∀ d ∈ whole, d.isDigit = true)
    (stop : ∀ d ∈ x.head?, d.isDigit = false) : digits (whole ++ x) = (whole, x) := by
  obtain ⟨first, left⟩ := span_append x all stop
  exact Prod.ext first left

theorem isDigit_digits (cs : List Char) : ∀ d ∈ (digits cs).1, d.isDigit = true :=
  List.all_eq_true.1 List.all_takeWhile

theorem mantissa?_retake (found : mantissa? cs = some (taken, rest))
    (stop : ∀ d ∈ x.head?, d.isDigit = false ∧ d ≠ '.') :
    mantissa? (taken ++ x) = some (taken, x) := by
  have notDigit : ∀ d ∈ x.head?, d.isDigit = false := fun d hd => (stop d hd).1
  have integral (nonempty : (digits cs).1.isEmpty ≠ true) :
      mantissa? ((digits cs).1 ++ x) = some ((digits cs).1, x) := by
    have again := digits_of_all (isDigit_digits cs) notDigit
    rw [mantissa?_of_no_point, again, if_neg nonempty]
    intro after same
    rw [again] at same
    obtain rfl : x = '.' :: after := same
    exact (stop '.' rfl).2 rfl
  by_cases point : ∃ after, (digits cs).2 = '.' :: after
  · obtain ⟨after, point⟩ := point
    rw [mantissa?_of_point point] at found
    split at found
    · split at found
      · cases found
      · rename_i nonempty
        obtain ⟨rfl, -⟩ := Prod.mk.inj (Option.some.inj found)
        exact integral nonempty
    · rename_i fraction
      obtain ⟨rfl, -⟩ := Prod.mk.inj (Option.some.inj found)
      have first : digits ((digits cs).1 ++ '.' :: ((digits after).1 ++ x)) = _ :=
        digits_of_all (isDigit_digits cs) (by simp)
      have second := digits_of_all (isDigit_digits after) notDigit
      rw [List.append_assoc, List.cons_append, mantissa?_of_point (congrArg Prod.snd first), first,
        second, if_neg fraction]
  · rw [mantissa?_of_no_point (not_exists.1 point)] at found
    split at found
    · cases found
    · rename_i nonempty
      obtain ⟨rfl, -⟩ := Prod.mk.inj (Option.some.inj found)
      exact integral nonempty

/-- A sign is taken where one stands, and none where none does. -/
theorem sign_retake (allowed : Bool) (cs : List Char) (start : ∀ d ∈ x.head?, d ≠ '+' ∧ d ≠ '-') :
    sign allowed ((sign allowed cs).1 ++ x) = ((sign allowed cs).1, x) := by
  have none : sign allowed x = ([], x) := by
    cases x with
    | nil => rfl
    | cons d x => simp [sign, start d rfl]
  cases cs with
  | nil => exact none
  | cons c cs =>
    by_cases isSign : (allowed && (c == '+' || c == '-')) = true
    · simp [sign, isSign]
    · simpa [sign, isSign] using none

theorem ne_sign_of_isDigit (digit : c.isDigit = true) : c ≠ '+' ∧ c ≠ '-' := by
  constructor <;> (rintro rfl; cases digit)

theorem exponent_retake (cs : List Char) : exponent (exponent cs).1 = ((exponent cs).1, []) := by
  cases cs with
  | nil => rfl
  | cons c cs =>
    by_cases marked : (c == 'e' || c == 'E') = true
    · by_cases none : (digits (sign true cs).2).1.isEmpty = true
      · simp [exponent, marked, none]
      · have start : ∀ d ∈ (digits (sign true cs).2).1.head?, d ≠ '+' ∧ d ≠ '-' :=
          fun d hd => ne_sign_of_isDigit (isDigit_digits _ d (List.mem_of_head? hd))
        have again := digits_of_all (x := []) (isDigit_digits (sign true cs).2) (by simp)
        rw [List.append_nil] at again
        simp [exponent, marked, none, sign_retake true cs start, again]
    · simp [exponent, marked]

theorem head?_exponent {d : Char} (h : d ∈ (exponent cs).1.head?) : d = 'e' ∨ d = 'E' := by
  cases cs with
  | nil => cases h
  | cons c cs =>
    by_cases marked : (c == 'e' || c == 'E') = true
    · by_cases none : (digits (sign true cs).2).1.isEmpty = true
      · simp [exponent, marked, none] at h
      · obtain rfl : c = d := by simpa [exponent, marked, none] using h
        simpa using marked
    · simp [exponent, marked] at h

theorem number?_retake (found : number? signed cs = some (taken, rest)) :
    number? signed taken = some (taken, []) := by
  simp only [number?, Option.map_eq_some_iff, Prod.exists, Prod.mk.injEq] at found
  obtain ⟨m, left, mantissa, rfl, -⟩ := found
  obtain ⟨d, ds, first, start⟩ := mantissa?_head mantissa
  have notSign : ∀ e ∈ (m ++ (exponent left).1).head?, e ≠ '+' ∧ e ≠ '-' := by
    intro e he
    obtain rfl : d = e := by simpa [first] using he
    rcases start with digit | rfl
    · exact ne_sign_of_isDigit digit
    · decide
  have again := mantissa?_retake (x := (exponent left).1) mantissa fun e he => by
    rcases head?_exponent he with rfl | rfl <;> decide
  simp only [number?, List.append_assoc, sign_retake signed cs notSign, again, Option.map_some,
    exponent_retake]

/-- Only numbers are taken as numbers. -/
theorem number?_of_scan (found : scan keywords signed cs = some ⟨some .number, taken, rest⟩) :
    number? signed cs = some (taken, rest) := by
  have other {k : Option Kind} {answer : Option Split}
      (found : answer.map (cut k) = some ⟨some .number, taken, rest⟩) : k = some .number := by
    obtain ⟨s, -, same⟩ := Option.map_eq_some_iff.1 found
    exact (Cut.mk.inj same).1
  unfold scan at found
  split at found
  · obtain ⟨s, -, same⟩ := Option.map_eq_some_iff.1 found
    cases same
  rcases orElse_eq_some found with comment | ⟨-, found⟩
  · cases other comment
  rcases orElse_eq_some found with word | ⟨-, found⟩
  · obtain ⟨s, -, same⟩ := Option.map_eq_some_iff.1 word
    have isWord : some (wordKind keywords s.1) = some .number := (Cut.mk.inj same).1
    unfold wordKind at isWord
    split at isWord <;> cases isWord
  rcases orElse_eq_some found with spaces | ⟨-, found⟩
  · cases other spaces
  rcases orElse_eq_some found with name | ⟨-, found⟩
  · cases other name
  rcases orElse_eq_some found with number | ⟨-, found⟩
  · obtain ⟨s, isNumber, same⟩ := Option.map_eq_some_iff.1 number
    obtain ⟨-, rfl, rfl⟩ := Cut.mk.inj same
    exact isNumber
  rcases orElse_eq_some found with string | ⟨-, operator⟩
  · cases other string
  · cases other operator

/-- A number starts with a digit or a point, or with a sign in front of one. -/
theorem number?_start (found : number? signed (c :: cs) = some (taken, rest)) :
    (c = '+' ∨ c = '-') ∧ cs.head? ≠ some '-' ∨ c = '.' ∨ c.isDigit = true := by
  simp only [number?, Option.map_eq_some_iff, Prod.exists] at found
  obtain ⟨m, left, mantissa, -⟩ := found
  obtain ⟨d, ds, rfl, start⟩ := mantissa?_head mantissa
  have whole := (mantissa?_divides _ _ _ mantissa).1
  by_cases isSign : (signed && (c == '+' || c == '-')) = true
  · have mark : c = '+' ∨ c = '-' := by simpa using (Bool.and_eq_true_iff.1 isSign).2
    simp only [sign, isSign, if_true] at whole
    refine .inl ⟨mark, ?_⟩
    rw [← whole]
    rintro ⟨⟩
    rcases start with digit | point
    · cases digit
    · cases point
  · simp only [sign, isSign] at whole
    obtain ⟨rfl, -⟩ := List.cons.inj whole
    exact .inr start.symm

theorem scan_number_retake (number : number? signed taken = some (taken, [])) (stops : Stops x) :
    scan keywords signed (taken ++ x) = some ⟨some .number, taken, x⟩ := by
  have longer : number? signed (taken ++ x) = some (taken, x) := by
    rw [number?_steady stops, number]
    rfl
  obtain ⟨c, cs, rfl⟩ := List.exists_cons_of_ne_nil (number?_divides _ _ _ _ number).2
  refine scan_of_number? ((number?_start number).imp_left (And.imp_right fun single => ?_)) longer
  cases cs with
  | nil => exact stops.head_ne (.inr (by decide))
  | cons d cs => exact single

theorem scan_single_retake (single : c ∈ singleOperators) (stops : Stops x) :
    scan keywords signed (c :: x) = some ⟨some .operator, [c], x⟩ := by
  have digits : ∀ c ∈ singleOperators, c.isDigit = false := by decide
  have operator : operator? ([c] ++ x) = some ([c], x) := by
    rw [operator?_steady stops]
    simp [operator?, single, goOn]
  have point : x.head? ≠ some '.' := stops.head_ne (.inr (by decide))
  refine scan_operator (by simp [operatorStarts, single]) (fun _ => stops.head_ne (.inr (by decide)))
    (fun _ => stops.head_ne (.inr (by decide))) (number?_eq_none (digits c single)
      (fun _ => stops.notDigit) fun _ d hd => ⟨stops.notDigit d hd, ?_⟩) operator
  rintro rfl
  exact point hd

/-- A token is taken again where no word, number or operator goes on. -/
theorem scan_retake {kind : Kind} (found : scan keywords signed cs = some ⟨some kind, taken, rest⟩)
    (stops : Stops x) : scan keywords signed (taken ++ x) = some ⟨some kind, taken, x⟩ := by
  have sound : Token.Sound keywords ⟨kind, String.ofList taken, .start⟩ :=
    (sound_of_scan found rfl).1
  have word (isWord : IsWord (String.ofList taken)) : scan keywords signed (taken ++ x) =
      some ⟨some (wordKind keywords taken), taken, x⟩ := by
    obtain ⟨c, cs, whole, start, all⟩ := isWord
    rw [String.toList_ofList] at whole
    subst whole
    exact scan_word start (List.all_eq_true.1 all) stops.notWord
  cases kind with
  | keyword =>
    obtain ⟨isWord, keyword⟩ := sound
    simpa [wordKind, keyword] using word isWord
  | identifier =>
    rcases sound with ⟨isWord, keyword⟩ | ⟨name, whole, nonempty, bare⟩
    · simpa [wordKind, keyword] using word isWord
    · have again : scan keywords signed ('\x60' :: (name ++ '\x60' :: x)) = some _ :=
        scan_quotedName nonempty bare
      rw [String.toList_ofList] at whole
      simpa [whole] using again
  | number => exact scan_number_retake (number?_retake (number?_of_scan found)) stops
  | string =>
    obtain ⟨quote, content, isQuote, whole, free⟩ := sound
    have again : scan keywords signed (quote :: (content ++ quote :: x)) = some _ :=
      scan_string isQuote free
    rw [String.toList_ofList] at whole
    simpa [whole] using again
  | operator =>
    simp only [Token.Sound, String.toList_ofList] at sound
    rcases sound with double | ⟨c, single, rfl⟩
    · exact scan_double double
    · exact scan_single_retake single stops

end TableDdl.Scan
