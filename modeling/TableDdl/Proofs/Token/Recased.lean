import TableDdl.Proofs.Text.Words
import TableDdl.Proofs.Token.Trimming

/-!
# Letter case and tokens

Writing ASCII letters in upper case takes no character from one class to another, so every scanner
takes as much from the text as before. Main statement: a text in upper case has the tokens of the
text, with their texts in upper case, or it has an error at the same place.
-/
namespace TableDdl

open Scan Text

variable {keywords : Keywords} {signed : Bool} {p : Position} {c x : Char} {cs : List Char}

namespace Text

/-- What is no letter is the upper case of itself alone. -/
theorem toUpper_eq_iff (other : x.isAlpha = false) : c.toUpper = x ↔ c = x := by
  refine iff_of_eq (toUpper_congr (p := (· = x)) (x := False) (fun d alpha => eq_false ?_) c)
  rintro rfl
  exact Bool.false_ne_true (other.symm.trans alpha)

theorem sameWord_upper (text : String) : sameWord (upper text) text = true := by
  have again (c : Char) : c.toUpper.toUpper = c.toUpper := by
    rcases toUpper_cases c with ⟨-, upper⟩ | ⟨-, same⟩
    · rcases toUpper_cases c.toUpper with ⟨lower, -⟩ | ⟨-, same⟩
      · have bounds := isUpper_iff.1 upper
        have bounds' := isLower_iff.1 lower
        omega
      · exact same
    · exact congrArg Char.toUpper same
  rw [sameWord_iff, upper, String.toList_ofList, List.map_map]
  exact List.map_congr_left fun c _ => again c

/-- A text without letters is the only one with its spelling. -/
theorem sameWord_iff_eq {a b : String} (other : ∀ c ∈ b.toList, c.isAlpha = false) :
    sameWord a b = true ↔ a = b := by
  constructor
  · intro same
    rw [sameWord_iff] at same
    refine String.toList_inj.1 (List.ext_getElem (by simpa using congrArg List.length same) ?_)
    intro i left right
    have at_ := congrArg (·[i]?) same
    simp only [List.getElem?_map, List.getElem?_eq_getElem left, List.getElem?_eq_getElem right,
      Option.map_some, Option.some.injEq] at at_
    rwa [(toUpper_eq_iff (other _ (List.getElem_mem right))).2 rfl,
      toUpper_eq_iff (other _ (List.getElem_mem right))] at at_
  · rintro rfl
    exact sameWord_refl a

theorem isWordPart_of_isAlpha (c : Char) (alpha : c.isAlpha = true) : isWordPart c = true := by
  simp [isWordPart, isLetter_of_isAlpha alpha]

theorem isWordStart_of_isAlpha (c : Char) (alpha : c.isAlpha = true) : isWordStart c = true := by
  simp [isWordStart, isLetter_of_isAlpha alpha]

theorem isBlank_of_isAlpha (c : Char) (alpha : c.isAlpha = true) : isBlank c = false := by
  cases blank : isBlank c with
  | true => exact absurd (isWordPart_of_isAlpha c alpha) (by simp [(apart_of_isBlank blank).1])
  | false => rfl

theorem isSpace_of_isAlpha (c : Char) (alpha : c.isAlpha = true) : isSpace c = false := by
  cases space : isSpace c with
  | true => rw [← isBlank_of_isSpace space, isBlank_of_isAlpha c alpha]
  | false => rfl

theorem toNat_of_isAlpha (c : Char) (alpha : c.isAlpha = true) : 65 ≤ c.toNat ∧ c.toNat ≤ 122 := by
  rw [isAlpha_iff, isUpper_iff, isLower_iff] at alpha
  omega

theorem isDigit_of_isAlpha (c : Char) (alpha : c.isAlpha = true) : c.isDigit = false := by
  have low := (toNat_of_isAlpha c alpha).1
  have digit : c.isDigit = true → c.toNat ≤ 57 := by
    simp [Char.isDigit, UInt32.le_iff_toNat_le, ← Char.toNat_val]
  cases isDigit : c.isDigit with
  | true =>
    have := digit isDigit
    omega
  | false => rfl

theorem utf8Size_of_isAlpha (c : Char) (alpha : c.isAlpha = true) : c.utf8Size = 1 := by
  have high := (toNat_of_isAlpha c alpha).2
  rw [Char.utf8Size_eq_one_iff, UInt32.le_iff_toNat_le]
  exact Nat.le_trans high (by decide)

theorem isLineEnd_toUpper (c : Char) : isLineEnd c.toUpper = isLineEnd c := by
  simp only [isLineEnd, beq_eq_decide, toUpper_eq_iff (show '\r'.isAlpha = false by decide),
    toUpper_eq_iff (show '\n'.isAlpha = false by decide)]

theorem utf8Size_toUpper (c : Char) : c.toUpper.utf8Size = c.utf8Size :=
  toUpper_congr utf8Size_of_isAlpha c

/-- A run of characters of a class that has all letters or none of them stays one. -/
theorem span_toUpper {p : Char → Bool} (same : ∀ c, p c.toUpper = p c) (cs : List Char) :
    (cs.map Char.toUpper).takeWhile p = (cs.takeWhile p).map Char.toUpper ∧
      (cs.map Char.toUpper).dropWhile p = (cs.dropWhile p).map Char.toUpper := by
  have blind : p ∘ Char.toUpper = p := funext same
  rw [List.takeWhile_map, List.dropWhile_map, blind]
  exact ⟨rfl, rfl⟩

theorem span_ne_toUpper (other : x.isAlpha = false) (cs : List Char) :
    (cs.map Char.toUpper).takeWhile (· != x) = (cs.takeWhile (· != x)).map Char.toUpper ∧
      (cs.map Char.toUpper).dropWhile (· != x) = (cs.dropWhile (· != x)).map Char.toUpper :=
  span_toUpper (fun c => by simp only [bne, beq_eq_decide, toUpper_eq_iff other]) cs

end Text

namespace Scan

/-- Both parts of the text in upper case. -/
def upperSplit (s : Split) : Split := (s.1.map Char.toUpper, s.2.map Char.toUpper)

/-- In upper case, the scanner takes as much from every text. -/
def CaseBlind (scanner : List Char → Option Split) : Prop :=
  ∀ cs, scanner (cs.map Char.toUpper) = (scanner cs).map upperSplit

theorem word?_caseBlind : CaseBlind word? := by
  rintro (_ | ⟨c, cs⟩)
  · rfl
  · obtain ⟨taken, rest⟩ := span_toUpper (toUpper_congr isWordPart_of_isAlpha) cs
    rw [List.map_cons, word?, word?, toUpper_congr isWordStart_of_isAlpha, taken, rest]
    split <;> rfl

theorem spaces?_caseBlind : CaseBlind spaces? := by
  rintro (_ | ⟨c, cs⟩)
  · rfl
  · obtain ⟨taken, rest⟩ := span_toUpper (toUpper_congr isSpace_of_isAlpha) cs
    rw [List.map_cons, spaces?, spaces?, toUpper_congr isSpace_of_isAlpha, taken, rest]
    split <;> rfl

theorem quotedName?_caseBlind : CaseBlind quotedName? := by
  rintro (_ | ⟨c, cs⟩)
  · rfl
  by_cases mark : c = '\x60'
  · subst mark
    obtain ⟨taken, rest⟩ := span_ne_toUpper (show '\x60'.isAlpha = false by decide) cs
    have quote : '\x60'.toUpper = '\x60' := rfl
    rw [List.map_cons, quote, quotedName?, quotedName?, taken, rest]
    cases cs.takeWhile (· != '\x60') with
    | nil => rfl
    | cons d name =>
      cases cs.dropWhile (· != '\x60') with
      | nil => rfl
      | cons q rest => simp [upperSplit, quote]
  · have mark' : c.toUpper ≠ '\x60' := fun h => mark ((toUpper_eq_iff (by decide)).1 h)
    rw [List.map_cons, quotedName?_eq_none mark, quotedName?_eq_none mark']
    rfl

theorem closedBy?_toUpper {quote : Char} (other : quote.isAlpha = false) (cs : List Char) :
    closedBy? quote (cs.map Char.toUpper) = (closedBy? quote cs).map upperSplit := by
  obtain ⟨taken, rest⟩ := span_ne_toUpper other cs
  rw [closedBy?, closedBy?, taken, rest]
  cases cs.dropWhile (· != quote) with
  | nil => rfl
  | cons q rest => simp [upperSplit, (toUpper_eq_iff other).2]

theorem string?_caseBlind : CaseBlind string? := by
  rintro (_ | ⟨c, cs⟩)
  · rfl
  by_cases single : c = '\x27'
  · subst single
    exact closedBy?_toUpper (by decide) cs
  by_cases double : c = '"'
  · subst double
    exact closedBy?_toUpper (by decide) cs
  have single' : c.toUpper ≠ '\x27' := fun h => single ((toUpper_eq_iff (by decide)).1 h)
  have double' : c.toUpper ≠ '"' := fun h => double ((toUpper_eq_iff (by decide)).1 h)
  rw [List.map_cons, string?_eq_none single double, string?_eq_none single' double']
  rfl

theorem sign_toUpper (allowed : Bool) (cs : List Char) :
    sign allowed (cs.map Char.toUpper) = upperSplit (sign allowed cs) := by
  cases cs with
  | nil => rfl
  | cons c cs =>
    simp only [List.map_cons, sign, beq_eq_decide,
      toUpper_eq_iff (show '+'.isAlpha = false by decide),
      toUpper_eq_iff (show '-'.isAlpha = false by decide)]
    split <;> rfl

theorem digits_toUpper (cs : List Char) :
    digits (cs.map Char.toUpper) = upperSplit (digits cs) := by
  obtain ⟨taken, rest⟩ := span_toUpper (toUpper_congr isDigit_of_isAlpha) cs
  rw [digits, taken, rest]
  rfl

theorem isEmpty_upperSplit (s : Split) : (upperSplit s).1.isEmpty = s.1.isEmpty :=
  List.isEmpty_map

theorem mantissa?_caseBlind : CaseBlind mantissa? := by
  intro cs
  have whole := digits_toUpper cs
  by_cases point : ∃ after, (digits cs).2 = '.' :: after
  · obtain ⟨after, point⟩ := point
    have upper : (digits (cs.map Char.toUpper)).2 = '.' :: after.map Char.toUpper := by
      rw [whole, upperSplit, point]
      rfl
    rw [mantissa?_of_point point, mantissa?_of_point upper, whole, digits_toUpper,
      isEmpty_upperSplit, isEmpty_upperSplit]
    split
    · split <;> rfl
    · simp [upperSplit]
  · have ends : ∀ after, (digits cs).2 ≠ '.' :: after := not_exists.1 point
    have ends' : ∀ after, (digits (cs.map Char.toUpper)).2 ≠ '.' :: after := by
      rintro after same
      rw [whole, upperSplit] at same
      obtain ⟨d, ds, isRest, isPoint, -⟩ := List.map_eq_cons_iff.1 same
      obtain rfl := (toUpper_eq_iff (by decide)).1 isPoint
      exact ends ds isRest
    rw [mantissa?_of_no_point ends, mantissa?_of_no_point ends', whole, isEmpty_upperSplit]
    split <;> rfl

/-- The mark of an exponent is the one letter that is looked for in both cases. -/
theorem exponentMark_toUpper (c : Char) :
    (c.toUpper == 'e' || c.toUpper == 'E') = (c == 'e' || c == 'E') := by
  rcases toUpper_cases c with ⟨lower, -⟩ | ⟨-, same⟩
  · have range : 97 ≤ c.toNat ∧ c.toNat ≤ 122 := isLower_iff.1 lower
    have letters : ∀ n < 123, 97 ≤ n → ((Char.ofNat n).toUpper == 'e' ||
        (Char.ofNat n).toUpper == 'E') = (Char.ofNat n == 'e' || Char.ofNat n == 'E') := by
      decide
    simpa only [Char.ofNat_toNat] using letters c.toNat (Nat.lt_succ_of_le range.2) range.1
  · rw [same]

theorem exponent_toUpper (cs : List Char) :
    exponent (cs.map Char.toUpper) = upperSplit (exponent cs) := by
  cases cs with
  | nil => rfl
  | cons c cs =>
    simp only [List.map_cons, exponent, exponentMark_toUpper, sign_toUpper]
    split
    · rw [upperSplit, digits_toUpper, isEmpty_upperSplit]
      split <;> simp [upperSplit]
    · rfl

theorem number?_caseBlind (signed : Bool) : CaseBlind (number? signed) := by
  intro cs
  simp only [number?, sign_toUpper]
  rw [upperSplit, mantissa?_caseBlind, Option.map_map, Option.map_map]
  refine Option.map_congr fun s _ => ?_
  simp [upperSplit, exponent_toUpper]

theorem operator?_caseBlind : CaseBlind operator? := by
  have single (c : Char) : singleOperators.contains c.toUpper = singleOperators.contains c := by
    have other : ∀ op ∈ singleOperators, op.isAlpha = false := by decide
    rw [Bool.eq_iff_iff, List.contains_iff_mem, List.contains_iff_mem]
    constructor
    · intro mem
      rwa [← (toUpper_eq_iff (other _ mem)).1 rfl] at mem
    · intro mem
      rwa [(toUpper_eq_iff (other _ mem)).2 rfl]
  have double (c d : Char) :
      doubleOperators.contains [c.toUpper, d.toUpper] = doubleOperators.contains [c, d] := by
    have other : ∀ op ∈ doubleOperators, ∀ c ∈ op, c.isAlpha = false := by decide
    rw [Bool.eq_iff_iff, List.contains_iff_mem, List.contains_iff_mem]
    constructor
    · intro mem
      rwa [← (toUpper_eq_iff (other _ mem c.toUpper (by simp))).1 rfl,
        ← (toUpper_eq_iff (other _ mem d.toUpper (by simp))).1 rfl] at mem
    · intro mem
      rwa [(toUpper_eq_iff (other _ mem c (by simp))).2 rfl,
        (toUpper_eq_iff (other _ mem d (by simp))).2 rfl]
  rintro (_ | ⟨c, _ | ⟨d, cs⟩⟩)
  · rfl
  · simp only [List.map_cons, List.map_nil, operator?, single]
    split <;> rfl
  · simp only [List.map_cons, operator?, single, double]
    split
    · rfl
    · split <;> rfl

theorem commentEnd?_caseBlind : CaseBlind commentEnd? := by
  intro cs
  fun_induction commentEnd? cs with
  | case1 => rfl
  | case2 cs => rfl
  | case3 c cs early ih =>
    have early' : ∀ tail, c.toUpper = '*' → cs.map Char.toUpper = '/' :: tail → False := by
      rintro tail star slash
      obtain ⟨d, ds, rfl, isSlash, -⟩ := List.map_eq_cons_iff.1 slash
      obtain rfl := (toUpper_eq_iff (by decide)).1 star
      obtain rfl := (toUpper_eq_iff (by decide)).1 isSlash
      exact early ds rfl rfl
    rw [List.map_cons, commentEnd?.eq_3 _ _ early', ih, Option.map_map, Option.map_map]
    rfl

theorem lineRest?_caseBlind : CaseBlind lineRest? := by
  intro cs
  have unbroken {front : List Char} (whole : Unbroken front) :
      Unbroken (front.map Char.toUpper) := by
    intro d hd
    obtain ⟨c, hc, rfl⟩ := List.mem_map.1 hd
    rw [isLineEnd_toUpper, whole c hc]
  rcases unbroken_or cs with whole | ⟨front, e, more, rfl, whole, ends⟩
  · rw [lineRest?_of_unbroken whole, lineRest?_of_unbroken (unbroken whole)]
    rfl
  · rw [List.map_append, List.map_cons, lineRest?_broken whole ends,
      lineRest?_broken (unbroken whole) (by rw [isLineEnd_toUpper, ends])]
    have feed : (more.map Char.toUpper).head? = some '\n' ↔ more.head? = some '\n' := by
      cases more with
      | nil => rfl
      | cons d ds => simp [toUpper_eq_iff (show '\n'.isAlpha = false by decide)]
    simp only [toUpper_eq_iff (show '\r'.isAlpha = false by decide), ne_eq, feed]
    split <;> simp [upperSplit]

theorem opener?_caseBlind : CaseBlind opener? := by
  intro cs
  have follows (cs : List Char) : (cs.map Char.toUpper).head?.all isBlank = cs.head?.all isBlank := by
    cases cs with
    | nil => rfl
    | cons d ds => exact toUpper_congr isBlank_of_isAlpha d
  fun_cases opener? cs with
  | case1 cs => rfl
  | case2 cs blank =>
    rw [← follows] at blank
    exact if_pos blank
  | case3 cs solid =>
    rw [← follows] at solid
    exact if_neg solid
  | case4 cs hash hyphens =>
    rw [opener?_eq_none]
    · rfl
    · rintro rest same
      obtain ⟨d, ds, rfl, isHash, -⟩ := List.map_eq_cons_iff.1 same
      obtain rfl := (toUpper_eq_iff (by decide)).1 isHash
      exact hash ds rfl
    · rintro rest same
      obtain ⟨d, ds, rfl, first, same⟩ := List.map_eq_cons_iff.1 same
      obtain ⟨d', ds, rfl, second, -⟩ := List.map_eq_cons_iff.1 same
      obtain rfl := (toUpper_eq_iff (by decide)).1 first
      obtain rfl := (toUpper_eq_iff (by decide)).1 second
      exact hyphens ds rfl

theorem lineComment?_caseBlind : CaseBlind lineComment? := by
  intro cs
  rw [lineComment?_eq, lineComment?_eq, opener?_caseBlind]
  cases opener? cs with
  | none => rfl
  | some s =>
    simp only [Option.map_some, Option.bind_some, upperSplit, lineRest?_caseBlind s.2,
      Option.map_map]
    refine Option.map_congr fun t _ => ?_
    simp [upperSplit]

/-- The cut of the text in upper case. -/
def Cut.upper (c : Cut) : Cut :=
  { c with taken := c.taken.map Char.toUpper, rest := c.rest.map Char.toUpper }

/-- What stands at the front of a text depends on letter case in no way. -/
theorem scan_toUpper (keywords : Keywords) (signed : Bool) (cs : List Char) :
    scan keywords signed (cs.map Char.toUpper) = (scan keywords signed cs).map Cut.upper := by
  have of {scanner : List Char → Option Split} {kind kind' : Split → Option Kind}
      (blind : CaseBlind scanner) (same : ∀ s, kind' (upperSplit s) = kind s) (cs : List Char) :
      (scanner (cs.map Char.toUpper)).map (fun s => cut (kind' s) s) =
        ((scanner cs).map fun s => cut (kind s) s).map Cut.upper := by
    rw [blind, Option.map_map, Option.map_map]
    refine Option.map_congr fun s _ => ?_
    simp only [Function.comp_apply, same]
    rfl
  have word (s : Split) : some (wordKind keywords (upperSplit s).1) = some (wordKind keywords s.1) := by
    have same : sameWord (String.ofList (upperSplit s).1) (String.ofList s.1) = true := by
      simpa [upper, upperSplit] using sameWord_upper (String.ofList s.1)
    simp only [wordKind, isKeyword_congr same]
  by_cases block : ∃ tail, cs = '/' :: '*' :: tail
  · obtain ⟨tail, rfl⟩ := block
    have upper : ('/' :: '*' :: tail).map Char.toUpper = '/' :: '*' :: tail.map Char.toUpper := rfl
    rw [upper, scan, scan, commentEnd?_caseBlind, Option.map_map, Option.map_map]
    rfl
  · have block' : ¬ ∃ tail, cs.map Char.toUpper = '/' :: '*' :: tail := by
      rintro ⟨tail, same⟩
      obtain ⟨d, ds, rfl, slash, same⟩ := List.map_eq_cons_iff.1 same
      obtain ⟨d', ds, rfl, star, -⟩ := List.map_eq_cons_iff.1 same
      obtain rfl := (toUpper_eq_iff (by decide)).1 slash
      obtain rfl := (toUpper_eq_iff (by decide)).1 star
      exact block ⟨ds, rfl⟩
    rw [scan.eq_2 _ _ _ (not_exists.1 block), scan.eq_2 _ _ _ (not_exists.1 block'),
      of lineComment?_caseBlind fun _ => rfl, of word?_caseBlind word,
      of spaces?_caseBlind fun _ => rfl, of quotedName?_caseBlind fun _ => rfl,
      of (number?_caseBlind signed) fun _ => rfl, of string?_caseBlind fun _ => rfl,
      of operator?_caseBlind fun _ => rfl]
    simp only [Option.orElse_eq_orElse, Option.orElse_eq_or, Option.map_or]

end Scan

theorem Position.after_toUpper (p : Position) (cs : List Char) :
    p.after (cs.map Char.toUpper) = p.after cs := by
  have next (p : Position) (c : Char) : p.next c.toUpper = p.next c := by
    simp only [Position.next, utf8Size_toUpper, toUpper_eq_iff (show '\n'.isAlpha = false by decide)]
  rw [Position.after, Position.after, List.foldl_map]
  simp only [next]

/-- The token with its text in upper case. -/
def Token.upper (t : Token) : Token := { t with text := Text.upper t.text }

/-- The tokens in upper case, or the error with the text it shows in upper case. -/
def upperTokens : Except Error (List Token) → Except Error (List Token)
  | .ok ts => .ok (ts.map Token.upper)
  | .error (.lexical p found) => .error (.lexical p (Text.upper found))
  | .error e => .error e

theorem Token.endsOperand_congr {t t' : Token} (kind : t'.kind = t.kind)
    (text : sameWord t'.text t.text = true) (keywords : Keywords) :
    t'.endsOperand keywords = t.endsOperand keywords := by
  have paren : (t'.text == ")") = (t.text == ")") := by
    have other : ∀ c ∈ ")".toList, c.isAlpha = false := by decide
    rw [Bool.eq_iff_iff, beq_iff_eq, beq_iff_eq, ← sameWord_iff_eq other, ← sameWord_iff_eq other,
      sameWord_congr text]
  have words : valueWords.any (sameWord t'.text) = valueWords.any (sameWord t.text) := by
    simp only [funext (sameWord_congr text)]
  simp only [endsOperand, kind, isReserved_congr text, paren, words]

@[simp] theorem Token.endsOperand_upper (t : Token) (keywords : Keywords) :
    t.upper.endsOperand keywords = t.endsOperand keywords := by
  have text : sameWord t.upper.text t.text = true := sameWord_upper t.text
  have kind : t.upper.kind = t.kind := rfl
  exact endsOperand_congr kind text keywords

theorem upperTokens_map (t : Token) (answer : Except Error (List Token)) :
    upperTokens (answer.map (t :: ·)) = (upperTokens answer).map (t.upper :: ·) := by
  rcases answer with (_ | _ | _ | _) | _ <;> rfl

/-- In upper case a text is cut in the same places, into the same tokens or up to the same
error. -/
theorem tokensFrom_toUpper (keywords : Keywords) (signed : Bool) (p : Position) (cs : List Char) :
    tokensFrom keywords signed p (cs.map Char.toUpper) =
      upperTokens (tokensFrom keywords signed p cs) := by
  induction length : cs.length using Nat.strongRecOn generalizing signed p cs with
  | ind n ih =>
    have scans := scan_toUpper keywords signed cs
    cases found : scan keywords signed cs with
    | none =>
      have none : scan keywords signed (cs.map Char.toUpper) = none := by rw [scans, found]; rfl
      by_cases empty : cs = []
      · simp [empty, upperTokens]
      · rw [tokensFrom_of_scan_eq_none found empty,
          tokensFrom_of_scan_eq_none none (by simpa using empty)]
        simp [upperTokens, Text.upper, List.map_take]
    | some c =>
      have shorter : c.rest.length < n := length ▸ length_rest_lt found
      have some : scan keywords signed (cs.map Char.toUpper) = some c.upper := by
        rw [scans, found]; rfl
      rw [tokensFrom_of_scan_eq_some found, tokensFrom_of_scan_eq_some some]
      simp only [Cut.upper, Position.after_toUpper]
      cases c.kind with
      | none => exact ih _ shorter _ _ _ rfl
      | some kind =>
        let t : Token := ⟨kind, String.ofList c.taken, p⟩
        have first : (⟨kind, String.ofList (c.taken.map Char.toUpper), p⟩ : Token) = t.upper := by
          simp [t, Token.upper, Text.upper]
        simp only [first, Token.endsOperand_upper, ih _ shorter _ _ _ rfl, upperTokens_map, t]

end TableDdl
