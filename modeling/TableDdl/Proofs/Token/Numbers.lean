import TableDdl.Proofs.Token.Signs

/-!
# Texts of numbers

A number is a sign or none, digits or digits around a point, and an exponent or none. Main
statement: the scanner takes such a text, and no longer one stands at the same place.
-/
namespace TableDdl.Scan

variable {signed : Bool} {cs ds x taken rest : List Char}

/-- One digit or more. -/
def IsDigits (cs : List Char) : Prop := cs ≠ [] ∧ ∀ d ∈ cs, d.isDigit = true

inductive IsSign : List Char → Prop
  | none : IsSign []
  | plus : IsSign ['+']
  | minus : IsSign ['-']

/-- Digits, or a point with digits after it and maybe before it. -/
inductive IsMantissa : List Char → Prop
  | whole {ds : List Char} (digits : IsDigits ds) : IsMantissa ds
  | fraction {whole fraction : List Char} (all : ∀ d ∈ whole, d.isDigit = true)
    (digits : IsDigits fraction) : IsMantissa (whole ++ '.' :: fraction)

inductive IsExponent : List Char → Prop
  | none : IsExponent []
  | power {mark : Char} {sign ds : List Char} (isMark : mark = 'e' ∨ mark = 'E')
    (isSign : IsSign sign) (digits : IsDigits ds) : IsExponent (mark :: (sign ++ ds))

inductive IsNumber : List Char → Prop
  | mk {sign mantissa exponent : List Char} (isSign : IsSign sign)
    (isMantissa : IsMantissa mantissa) (isExponent : IsExponent exponent) :
    IsNumber (sign ++ (mantissa ++ exponent))

theorem IsMantissa.head (h : IsMantissa cs) : ∃ c m, cs = c :: m ∧ (c.isDigit = true ∨ c = '.') := by
  cases h with
  | whole digits =>
    obtain ⟨c, m, rfl⟩ := List.exists_cons_of_ne_nil digits.1
    exact ⟨c, m, rfl, .inl (digits.2 c List.mem_cons_self)⟩
  | @fraction whole fraction all _ =>
    cases whole with
    | nil => exact ⟨'.', fraction, rfl, .inr rfl⟩
    | cons c whole => exact ⟨c, whole ++ '.' :: fraction, rfl, .inl (all c List.mem_cons_self)⟩

theorem IsExponent.head (h : IsExponent cs) : ∀ c ∈ cs.head?, c = 'e' ∨ c = 'E' := by
  cases h with
  | none => exact nofun
  | power isMark =>
    rintro c ⟨⟩
    exact isMark

/-- A number ends with a digit. -/
theorem IsNumber.last (h : IsNumber cs) : ∃ c, cs.getLast? = some c ∧ c.isDigit = true := by
  have digits {front ds : List Char} (h : IsDigits ds) :
      ∃ c, (front ++ ds).getLast? = some c ∧ c.isDigit = true := by
    rw [List.getLast?_append_of_ne_nil _ h.1, List.getLast?_eq_some_getLast h.1]
    exact ⟨_, rfl, h.2 _ (List.getLast_mem h.1)⟩
  obtain ⟨-, isMantissa, isExponent⟩ := h
  rename_i s m e
  cases isExponent with
  | none =>
    rw [List.append_nil]
    cases isMantissa with
    | whole h => exact digits h
    | @fraction whole fraction _ h =>
      have split : s ++ (whole ++ '.' :: fraction) = (s ++ whole ++ ['.']) ++ fraction := by simp
      rw [split]
      exact digits h
  | @power mark sign ds _ _ h =>
    have split : s ++ (m ++ mark :: (sign ++ ds)) = (s ++ m ++ mark :: sign) ++ ds := by simp
    rw [split]
    exact digits h

theorem isSign_sign (allowed : Bool) (cs : List Char) : IsSign (sign allowed cs).1 := by
  cases cs with
  | nil => exact .none
  | cons c cs =>
    simp only [sign]
    split
    · rename_i isSign
      have isSign : c = '+' ∨ c = '-' := by simpa using (Bool.and_eq_true_iff.1 isSign).2
      rcases isSign with rfl | rfl
      · exact .plus
      · exact .minus
    · exact .none

theorem isDigits_digits (some : (digits cs).1.isEmpty ≠ true) : IsDigits (digits cs).1 :=
  ⟨fun none => some (List.isEmpty_iff.2 none), isDigit_digits cs⟩

theorem isMantissa_of_mantissa? (found : mantissa? cs = some (taken, rest)) : IsMantissa taken := by
  by_cases point : ∃ after, (digits cs).2 = '.' :: after
  · obtain ⟨after, point⟩ := point
    rw [mantissa?_of_point point] at found
    split at found
    · split at found
      · cases found
      · rename_i some
        obtain ⟨rfl, -⟩ := Prod.mk.inj (Option.some.inj found)
        exact .whole (isDigits_digits some)
    · rename_i some
      obtain ⟨rfl, -⟩ := Prod.mk.inj (Option.some.inj found)
      exact .fraction (isDigit_digits cs) (isDigits_digits some)
  · rw [mantissa?_of_no_point (not_exists.1 point)] at found
    split at found
    · cases found
    · rename_i some
      obtain ⟨rfl, -⟩ := Prod.mk.inj (Option.some.inj found)
      exact .whole (isDigits_digits some)

theorem isExponent_exponent (cs : List Char) : IsExponent (exponent cs).1 := by
  cases cs with
  | nil => exact .none
  | cons c cs =>
    simp only [exponent]
    split
    · rename_i marked
      split
      · exact .none
      · rename_i some
        exact .power (by simpa using marked) (isSign_sign true cs) (isDigits_digits some)
    · exact .none

theorem isNumber_of_number? (found : number? signed cs = some (taken, rest)) : IsNumber taken := by
  obtain ⟨⟨m, left⟩, mantissa, same⟩ := Option.map_eq_some_iff.1 found
  obtain ⟨rfl, -⟩ := Prod.mk.inj same
  rw [List.append_assoc]
  exact .mk (isSign_sign signed cs) (isMantissa_of_mantissa? mantissa) (isExponent_exponent left)

theorem digits_append_of_all (all : ∀ d ∈ ds, d.isDigit = true) (x : List Char) :
    digits (ds ++ x) = (ds ++ (digits x).1, (digits x).2) := by
  simp [digits, List.takeWhile_append_of_pos all, List.dropWhile_append_of_pos all]

/-- Where a mantissa stands, it is taken, and maybe more digits or a point with digits. -/
theorem mantissa?_append (h : IsMantissa cs) (x : List Char) : ∃ more left,
    mantissa? (cs ++ x) = some (cs ++ more, left) ∧ more ++ left = x ∧
      ∀ d ∈ more.head?, d.isDigit = true ∨ d = '.' := by
  have starts (x : List Char) : ∀ d ∈ (digits x).1.head?, d.isDigit = true ∨ d = '.' :=
    fun d hd => .inl (isDigit_digits x d (List.mem_of_head? hd))
  cases h with
  | whole ds =>
    have here := digits_append_of_all ds.2 x
    have some : ((cs ++ (digits x).1).isEmpty) ≠ true := by simp [ds.1]
    have digitsOnly : ∃ more left, Option.some (digits (cs ++ x)) = .some (cs ++ more, left) ∧
        more ++ left = x ∧ ∀ d ∈ more.head?, d.isDigit = true ∨ d = '.' :=
      ⟨_, _, congrArg _ here, digits_append x, starts x⟩
    by_cases point : ∃ after, (digits (cs ++ x)).2 = '.' :: after
    · obtain ⟨after, point⟩ := point
      rw [mantissa?_of_point point]
      split
      · rwa [if_neg (by rwa [here])]
      · rw [here] at point
        refine ⟨(digits x).1 ++ '.' :: (digits after).1, (digits after).2, by simp [here], ?_, ?_⟩
        · rw [List.append_assoc, List.cons_append, digits_append, ← point, digits_append]
        · have first := starts x
          cases front : (digits x).1 with
          | nil => simp
          | cons d ds => simpa [front] using first
    · rw [mantissa?_of_no_point (not_exists.1 point), if_neg (by rwa [here])]
      exact digitsOnly
  | @fraction whole fraction all ds =>
    have point : digits (whole ++ '.' :: (fraction ++ x)) = (whole, '.' :: (fraction ++ x)) :=
      digits_of_all all (by simp)
    have after := digits_append_of_all ds.2 x
    refine ⟨(digits x).1, (digits x).2, ?_, digits_append x, starts x⟩
    rw [List.append_assoc, List.cons_append, mantissa?_of_point (congrArg Prod.snd point), point,
      after, if_neg (by simp [ds.1])]
    simp

theorem isPrefix_exponent (h : IsExponent cs) (x : List Char) :
    cs <+: (exponent (cs ++ x)).1 := by
  cases h with
  | none => exact List.nil_prefix
  | @power mark s ds isMark isSign digits =>
    obtain ⟨d, es, same⟩ := List.exists_cons_of_ne_nil digits.1
    obtain ⟨plus, minus⟩ := ne_sign_of_isDigit (digits.2 d (same ▸ List.mem_cons_self))
    have ahead : Scan.sign true (s ++ (ds ++ x)) = (s, ds ++ x) := by
      subst same
      cases isSign <;> simp [Scan.sign, plus, minus]
    have marked : (mark == 'e' || mark == 'E') = true := by simpa using isMark
    refine ⟨(Scan.digits x).1, ?_⟩
    simp [exponent, marked, ahead, digits_append_of_all digits.2, digits.1]

/-- No number at the place is longer than what is taken. -/
theorem isPrefix_of_number? (found : number? signed cs = some (taken, rest)) {longer : List Char}
    (isNumber : IsNumber longer) (front : longer <+: cs) : longer <+: taken := by
  obtain ⟨isSign, isMantissa, isExponent⟩ := isNumber
  rename_i s m e
  obtain ⟨y, rfl⟩ := front
  obtain ⟨c, m', whole, start⟩ := isMantissa.head
  have unsigned : c ≠ '+' ∧ c ≠ '-' := by
    rcases start with digit | rfl
    · exact ne_sign_of_isDigit digit
    · decide
  obtain ⟨more, left, mantissa, split, first⟩ := mantissa?_append isMantissa (e ++ y)
  have ahead : Scan.sign signed (s ++ (m ++ e) ++ y) = (s, m ++ (e ++ y)) := by
    have alone (d : Char) (plusMinus : d = '+' ∨ d = '-') (same : s = [d]) :
        Scan.sign signed (s ++ (m ++ e) ++ y) = (s, m ++ (e ++ y)) := by
      subst same
      cases signed with
      | true => rcases plusMinus with rfl | rfl <;> simp [Scan.sign]
      | false =>
        have none : mantissa? (d :: (m ++ (e ++ y))) = none := mantissa?_sign plusMinus
        simp [number?, Scan.sign, none] at found
    cases isSign with
    | none => simp [whole, Scan.sign, unsigned]
    | plus => exact alone '+' (.inl rfl) rfl
    | minus => exact alone '-' (.inr rfl) rfl
  simp only [number?, ahead, mantissa, Option.map_some, Option.some.injEq, Prod.mk.injEq] at found
  obtain ⟨rfl, -⟩ := found
  cases more with
  | nil =>
    obtain rfl : left = e ++ y := split
    rw [List.append_nil, ← List.append_assoc s]
    exact (List.prefix_append_right_inj _).2 (isPrefix_exponent isExponent y)
  | cons d more =>
    obtain rfl : e = [] := by
      cases e with
      | nil => rfl
      | cons mark e =>
        obtain ⟨rfl, -⟩ := List.cons.inj split
        rcases isExponent.head d rfl with rfl | rfl <;> simp at first
    exact ⟨d :: more ++ (exponent left).1, by simp⟩

end TableDdl.Scan
