import TableDdl.Proofs.Grammar.Accepting
import TableDdl.Proofs.Token.Retaken
import TableDdl.Proofs.Token.Trimming
import TableDdl.Script

/-!
# Signs under another table

The keyword table decides which words are keywords, and whether a sign is a token of its own or
begins a number. Main statement: nothing else about the tokens of a text depends on the table. A
text has tokens under all tables or under none, and its semicolons are always at the same places.
-/
namespace TableDdl

open Scan Text

variable {keywords other : Keywords} {signed : Bool} {p : Position} {c : Char} {cs : List Char}
  {ts : List Token}

namespace Scan

theorem mantissa?_sign (isSign : c = '+' ∨ c = '-') : mantissa? (c :: cs) = none := by
  refine mantissa?_eq_none ?_ ?_
  · intro d hd
    obtain rfl := Option.some.inj hd
    rcases isSign with rfl | rfl <;> decide
  · rintro after same
    obtain ⟨rfl, -⟩ := List.cons.inj same
    rcases isSign with point | point <;> cases point

theorem scan_congr {first second : Bool} (same : number? first cs = number? second cs) :
    scan keywords first cs = scan keywords second cs := by
  unfold scan
  split
  · rfl
  · rw [same]

/-- A sign matters only where it begins a number, or is an operator with the number after it. -/
theorem scan_sign (c : Char) (cs : List Char) :
    (∀ keywords first second, scan keywords first (c :: cs) = scan keywords second (c :: cs)) ∨
      (c = '+' ∨ c = '-') ∧ ∃ taken rest, ∀ keywords,
        scan keywords true (c :: cs) = some ⟨some .number, c :: taken, rest⟩ ∧
        scan keywords false (c :: cs) = some ⟨some .operator, [c], cs⟩ ∧
        ∀ signed, scan keywords signed cs = some ⟨some .number, taken, rest⟩ := by
  have alike (same : number? true (c :: cs) = number? false (c :: cs)) (keywords : Keywords)
      (first second : Bool) : scan keywords first (c :: cs) = scan keywords second (c :: cs) := by
    cases first <;> cases second <;> exact scan_congr (by simp only [same])
  by_cases isSign : c = '+' ∨ c = '-'
  · have unsigned : number? false (c :: cs) = none := by
      simp [number?, sign, mantissa?_sign isSign]
    -- With a sign allowed the number is the sign and the mantissa after it; else there is none.
    have long : number? true (c :: cs) = (mantissa? cs).map fun m =>
        (c :: (m.1 ++ (exponent m.2).1), (exponent m.2).2) := by
      rcases isSign with rfl | rfl <;> rfl
    cases mantissa : mantissa? cs with
    | none =>
      rw [mantissa, Option.map_none, ← unsigned] at long
      exact .inl (alike long)
    | some m =>
      rw [mantissa, Option.map_some] at long
      obtain ⟨d, ds, isTaken, start⟩ := mantissa?_head mantissa
      have whole := (mantissa?_divides _ _ _ mantissa).1
      rw [isTaken] at whole
      obtain ⟨rest, rfl⟩ : ∃ rest, cs = d :: rest := ⟨_, whole.symm⟩
      have bare : (d == '+' || d == '-') = false := by
        rcases start with digit | rfl
        · rw [Bool.or_eq_false_iff, beq_eq_false_iff_ne, beq_eq_false_iff_ne]
          constructor <;> (rintro rfl; cases digit)
        · rfl
      have short (signed : Bool) : number? signed (d :: rest) =
          some (m.1 ++ (exponent m.2).1, (exponent m.2).2) := by
        simp [number?, sign, bare, mantissa]
      have operator : operator? (c :: d :: rest) = some ([c], d :: rest) := by
        rcases isSign with rfl | rfl <;> simp [operator?, doubleOperators, singleOperators]
      have single : c = '-' → (d :: rest).head? ≠ some '-' := by
        rintro - hyphen
        obtain rfl := Option.some.inj hyphen
        cases bare
      refine .inr ⟨isSign, m.1 ++ (exponent m.2).1, (exponent m.2).2, fun keywords =>
        ⟨scan_of_number? (number?_start long) long, ?_,
          fun signed => scan_of_number? (.inr start.symm) (short signed)⟩⟩
      refine scan_operator ?_ ?_ single unsigned operator
      · rcases isSign with rfl | rfl <;> decide
      · rintro rfl
        simp at isSign
  · have same : number? true (c :: cs) = number? false (c :: cs) := by
      obtain ⟨plus, hyphen⟩ := not_or.1 isSign
      simp [number?, sign, plus, hyphen]
    exact .inl (alike same)

end Scan

/-- A number after a sign that is an operator may have a sign of its own. -/
theorem unsigned_sign (isSign : c = '+' ∨ c = '-') :
    (!Token.endsOperand keywords ⟨.operator, String.ofList [c], p⟩) = true := by
  rcases isSign with rfl | rfl <;> rfl

/-- The same text at the same place, and the same kind unless a keyword of one table is a name
under the other. -/
structure Token.Twin (t u : Token) : Prop where
  text : u.text = t.text
  position : u.position = t.position
  kind : u.kind = t.kind ∨ IsWord t.text ∧
    (t.kind = .keyword ∧ u.kind = .identifier ∨ t.kind = .identifier ∧ u.kind = .keyword)

/-- A number with a sign is an operator and the number right after it. -/
structure Token.Splits (whole sign digits : Token) : Prop where
  ofWhole : whole.kind = .number
  ofSign : sign.kind = .operator
  ofDigits : digits.kind = .number
  isSign : sign.text = "+" ∨ sign.text = "-"
  unsigned : digits.isSigned = false
  text : whole.text = sign.text ++ digits.text
  front : sign.position = whole.position
  behind : digits.position = sign.position.after sign.text.toList

/-- The tokens differ in the tags of words and in signs that belong to numbers, and in nothing
else. -/
inductive Recut : List Token → List Token → Prop
  | done : Recut [] []
  | twin {t u : Token} {ts us : List Token} (twin : t.Twin u) (later : Recut ts us) :
    Recut (t :: ts) (u :: us)
  | parted {whole sign digits : Token} {ts us : List Token} (splits : whole.Splits sign digits)
    (later : Recut ts us) : Recut (whole :: ts) (sign :: digits :: us)
  | joined {whole sign digits : Token} {ts us : List Token} (splits : whole.Splits sign digits)
    (later : Recut ts us) : Recut (sign :: digits :: ts) (whole :: us)

theorem Token.twin_under {t : Token} (sound : t.Sound keywords) (other : Keywords) :
    t.Twin (t.under other) where
  text := rfl
  position := rfl
  kind := by
    cases word : t.isWord with
    | false => exact .inl (by rw [under_eq_self word])
    | true =>
      obtain ⟨sound', word'⟩ := sound_under other sound word
      obtain ⟨isWord, tag⟩ := isWord_cases sound word
      obtain ⟨-, tag'⟩ := isWord_cases sound' word'
      rcases tag with tag | ⟨tag, -⟩ <;> rcases tag' with tag' | ⟨tag', -⟩ <;>
        simp [tag, tag', isWord]

namespace Token

variable {t u whole sign digits : Token}

theorem Twin.eq_of_isSemicolon (twin : t.Twin u)
    (semi : t.isSemicolon = true ∨ u.isSemicolon = true) : u = t := by
  have kind : u.kind = t.kind := by
    refine twin.kind.resolve_right ?_
    rintro ⟨-, ⟨first, second⟩ | ⟨first, second⟩⟩ <;>
      simp [isSemicolon, first, second] at semi
  have text := twin.text
  have position := twin.position
  cases t
  cases u
  simp_all

theorem Twin.isSemicolon_eq (twin : t.Twin u) : u.isSemicolon = t.isSemicolon := by
  cases first : t.isSemicolon with
  | true => rw [twin.eq_of_isSemicolon (.inl first), first]
  | false =>
    cases second : u.isSemicolon with
    | false => rfl
    | true => rw [← first, ← twin.eq_of_isSemicolon (.inr second), second]

/-- No part of a number with a sign is a semicolon. -/
theorem Splits.undivided (splits : whole.Splits sign digits) : whole.isSemicolon = false ∧
    sign.isSemicolon = false ∧ digits.isSemicolon = false := by
  refine ⟨by simp [isSemicolon, splits.ofWhole], ?_, by simp [isSemicolon, splits.ofDigits]⟩
  rcases splits.isSign with text | text <;> simp [isSemicolon, text]

end Token

namespace Recut

variable {ts us : List Token}

theorem filter_isSemicolon (h : Recut ts us) :
    us.filter Token.isSemicolon = ts.filter Token.isSemicolon := by
  induction h with
  | done => rfl
  | @twin t u _ _ twin _ ih =>
    rw [List.filter_cons, List.filter_cons, twin.isSemicolon_eq, ih]
    split
    · rename_i semi
      rw [twin.eq_of_isSemicolon (.inl semi)]
    · rfl
  | parted splits _ ih =>
    obtain ⟨whole, sign, digits⟩ := splits.undivided
    simp [whole, sign, digits, ih]
  | joined splits _ ih =>
    obtain ⟨whole, sign, digits⟩ := splits.undivided
    simp [whole, sign, digits, ih]

/-- A script is cut at the same places. -/
theorem piecesFrom_eq (h : Recut ts us) (text : List Char) (start : Nat) (seen : Bool) :
    Script.piecesFrom text start seen us = Script.piecesFrom text start seen ts := by
  induction h generalizing start seen with
  | done => rfl
  | twin twin _ ih => simp only [Script.piecesFrom, twin.isSemicolon_eq, twin.position, ih]
  | parted splits _ ih =>
    obtain ⟨whole, sign, digits⟩ := splits.undivided
    simp [Script.piecesFrom, whole, sign, digits, ih]
  | joined splits _ ih =>
    obtain ⟨whole, sign, digits⟩ := splits.undivided
    simp [Script.piecesFrom, whole, sign, digits, ih]

end Recut

/-- The same lexical error, or tokens that differ in tags and signs. -/
inductive RecutAnswer : Except Error (List Token) → Except Error (List Token) → Prop
  | error (place : Position) (found : String) :
    RecutAnswer (.error (.lexical place found)) (.error (.lexical place found))
  | ok {ts us : List Token} (recut : Recut ts us) : RecutAnswer (.ok ts) (.ok us)

namespace RecutAnswer

variable {first second : Except Error (List Token)} {t u whole sign digits : Token}

theorem twin (twin : t.Twin u) (h : RecutAnswer first second) :
    RecutAnswer (first.map (t :: ·)) (second.map (u :: ·)) := by
  cases h with
  | error place found => exact .error place found
  | ok recut => exact .ok (.twin twin recut)

theorem parted (splits : whole.Splits sign digits) (h : RecutAnswer first second) :
    RecutAnswer (first.map (whole :: ·)) ((second.map (digits :: ·)).map (sign :: ·)) := by
  cases h with
  | error place found => exact .error place found
  | ok recut => exact .ok (.parted splits recut)

theorem joined (splits : whole.Splits sign digits) (h : RecutAnswer first second) :
    RecutAnswer ((first.map (digits :: ·)).map (sign :: ·)) (second.map (whole :: ·)) := by
  cases h with
  | error place found => exact .error place found
  | ok recut => exact .ok (.joined splits recut)

end RecutAnswer

/-- A number with a sign, scanned at one place in both ways. -/
theorem Token.splits_of_scan {taken rest : List Char} (isSign : c = '+' ∨ c = '-')
    (number : scan keywords false cs = some ⟨some .number, taken, rest⟩) (p : Position) :
    Token.Splits ⟨.number, String.ofList (c :: taken), p⟩ ⟨.operator, String.ofList [c], p⟩
      ⟨.number, String.ofList taken, p.after [c]⟩ where
  ofWhole := rfl
  ofSign := rfl
  ofDigits := rfl
  isSign := by rcases isSign with rfl | rfl <;> simp
  unsigned := (sound_of_scan number rfl).2 rfl
  text := by rw [← String.ofList_append]; rfl
  front := rfl
  behind := by simp

/-- From one place on, two tables come to the same, whether or not a sign may come first. -/
theorem recutAnswer_tokensFrom (first second : Keywords) (signed start : Bool) (p : Position)
    (cs : List Char) :
    RecutAnswer (tokensFrom first signed p cs) (tokensFrom second start p cs) := by
  -- On the length of the text. One run may take a sign together with a number where the other one
  -- takes the sign alone, so the two may stand at different places in between.
  induction length : cs.length using Nat.strongRecOn generalizing signed start p cs with
  | ind n ih =>
    cases cs with
    | nil => simpa using .ok .done
    | cons c cs =>
      have again := scan_under first second signed (c :: cs)
      rcases scan_sign c cs with alike | ⟨isSign, taken, rest, all⟩
      · rw [alike second signed start] at again
        cases found : scan first signed (c :: cs) with
        | none =>
          rw [found] at again
          rw [tokensFrom_of_scan_eq_none found (by simp),
            tokensFrom_of_scan_eq_none again (by simp)]
          exact .error _ _
        | some cut =>
          have shorter : cut.rest.length < n := length ▸ length_rest_lt found
          rw [found] at again
          rw [tokensFrom_of_scan_eq_some found, tokensFrom_of_scan_eq_some again]
          obtain ⟨_ | kind, taken, rest⟩ := cut
          · exact ih _ shorter signed start _ _ rfl
          · have sound : Token.Sound first ⟨kind, String.ofList taken, p⟩ :=
              (sound_of_scan found rfl).1
            have tagged := Token.twin_under sound second
            rw [Token.under, String.toList_ofList] at tagged
            exact .twin tagged (ih _ shorter _ _ _ _ rfl)
      · obtain ⟨number, operator, inner⟩ := all first
        obtain ⟨number', operator', inner'⟩ := all second
        have shorter : cs.length < n := length ▸ Nat.lt_succ_self _
        have shorter' : rest.length < n := (length_rest_lt (inner true)).trans shorter
        have place : p.after (c :: taken) = (p.after [c]).after taken :=
          Position.after_append p [c] taken
        -- The runs differ here only if just one of them may take the sign with the number.
        cases signed <;> cases start
        · rw [tokensFrom_of_scan_eq_some operator, tokensFrom_of_scan_eq_some operator']
          exact .twin ⟨rfl, rfl, .inl rfl⟩ (ih _ shorter _ _ _ _ rfl)
        · rw [tokensFrom_of_scan_eq_some operator, tokensFrom_of_scan_eq_some number']
          simp only [unsigned_sign isSign]
          rw [tokensFrom_of_scan_eq_some (inner true), place]
          exact .joined (Token.splits_of_scan isSign (inner false) p) (ih _ shorter' _ _ _ _ rfl)
        · rw [tokensFrom_of_scan_eq_some number, tokensFrom_of_scan_eq_some operator']
          simp only [unsigned_sign isSign]
          rw [tokensFrom_of_scan_eq_some (inner' true), place]
          exact .parted (Token.splits_of_scan isSign (inner false) p) (ih _ shorter' _ _ _ _ rfl)
        · rw [tokensFrom_of_scan_eq_some number, tokensFrom_of_scan_eq_some number']
          exact .twin ⟨rfl, rfl, .inl rfl⟩ (ih _ shorter' _ _ _ _ rfl)

/-- Under another table, and whether or not a sign may come first, the text has tokens, and the
same semicolons. -/
theorem Lexes.semicolons (h : Lexes keywords signed p cs ts) (other : Keywords) (start : Bool) :
    ∃ us, Lexes other start p cs us ∧ ∀ t ∈ ts, t.isSemicolon = true → t ∈ us := by
  have answer := recutAnswer_tokensFrom keywords other signed start p cs
  rw [h.tokensFrom_eq] at answer
  generalize again : tokensFrom other start p cs = second at answer
  cases answer with
  | @ok _ us recut =>
    refine ⟨us, lexes_of_tokensFrom again, fun t mem semi => ?_⟩
    have kept : t ∈ us.filter Token.isSemicolon :=
      recut.filter_isSemicolon ▸ List.mem_filter.2 ⟨mem, semi⟩
    exact (List.mem_filter.1 kept).1

/-- Under any two tables a text has the same lexical error, or tokens that differ in the tags of
words and in signs that belong to numbers. The semicolons are the same, so that a script may be
split with any table. -/
theorem tokenize_twice (first second : Keywords) (text : String) :
    ((∃ place found, tokenize first text = .error (.lexical place found) ∧
        tokenize second text = .error (.lexical place found)) ∨
      ∃ ts us, tokenize first text = .ok ts ∧ tokenize second text = .ok us ∧ Recut ts us ∧
        us.filter Token.isSemicolon = ts.filter Token.isSemicolon) ∧
    Script.split text =
      (tokenize first text).map (Script.piecesFrom text.toList 0 false) := by
  have answers (keywords other : Keywords) :
      RecutAnswer (tokenize keywords text) (tokenize other text) :=
    recutAnswer_tokensFrom keywords other true true .start text.toList
  constructor
  · have both := answers first second
    generalize tokenize first text = one at both
    generalize tokenize second text = two at both
    cases both with
    | error place found => exact .inl ⟨place, found, rfl, rfl⟩
    | ok recut => exact .inr ⟨_, _, rfl, rfl, recut, recut.filter_isSemicolon⟩
  · rw [Script.split]
    have default := answers first .mysql
    generalize tokenize first text = one at default
    generalize tokenize .mysql text = two at default
    cases default with
    | error => rfl
    | ok recut => exact congrArg Except.ok (recut.piecesFrom_eq text.toList 0 false)

/-- Where `NOT` is no keyword, it is a name, and the hyphen after it is an operator. -/
example :
    (tokenize .mysql "NOT-1;").toOption.map (·.map Token.text) = some ["NOT", "-1", ";"] ∧
    (tokenize .empty "NOT-1;").toOption.map (·.map Token.text) = some ["NOT", "-", "1", ";"] := by
  decide +kernel

end TableDdl
