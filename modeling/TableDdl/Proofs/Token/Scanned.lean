import Mathlib.Data.List.Chain
import TableDdl.Proofs.Text.Words
import TableDdl.Token.Tokenize

/-!
# Scanned tokens

What the texts of scanned tokens look like. Words are letters, digits and underscores; quoted
names are not empty and hold no backquote; a literal does not hold its quote; and a number with a
sign never follows a token where an operand can end.
-/
namespace TableDdl

open Scan

namespace Text

/-- A letter or underscore, and letters, digits and underscores after it. -/
def IsWord (text : String) : Prop :=
  ∃ c cs, text.toList = c :: cs ∧ isWordStart c = true ∧ cs.all isWordPart = true

end Text

namespace Token

/-- The text of the token is one of its kind. -/
def Sound (keywords : Keywords) (t : Token) : Prop :=
  match t.kind with
  | .keyword => Text.IsWord t.text ∧ keywords.isKeyword t.text = true
  | .identifier => Text.IsWord t.text ∧ keywords.isKeyword t.text = false ∨
      ∃ name, t.text.toList = '\x60' :: (name ++ ['\x60']) ∧ name ≠ [] ∧ '\x60' ∉ name
  | .string => ∃ quote content, (quote = '\x27' ∨ quote = '"') ∧
      t.text.toList = quote :: (content ++ [quote]) ∧ quote ∉ content
  | .number => True
  | .operator => t.text.toList ∈ doubleOperators ∨ ∃ c ∈ singleOperators, t.text.toList = [c]

/-- A number that starts with a sign. -/
def isSigned (t : Token) : Bool :=
  t.kind == .number && t.text.toList.head?.any fun c => c == '+' || c == '-'

end Token

/-- Tokens that may come from one text: each is sound, and a sign that could be an operator is
no part of a number. -/
def Scanned (keywords : Keywords) (ts : List Token) : Prop :=
  (∀ t ∈ ts, t.Sound keywords) ∧
    ts.IsChain fun t t' => t.endsOperand keywords = true → t'.isSigned = false

namespace Scan

variable {keywords : Keywords} {signed : Bool} {cs taken rest : List Char} {p : Position}

theorem sound_of_word? (h : word? cs = some (taken, rest)) :
    Token.Sound keywords ⟨wordKind keywords taken, String.ofList taken, p⟩ := by
  have word : Text.IsWord (String.ofList taken) := by
    cases cs with
    | nil => simp [word?] at h
    | cons c cs =>
      simp only [word?, Option.ite_none_right_eq_some, Option.some.injEq, Prod.mk.injEq] at h
      obtain ⟨start, rfl, -⟩ := h
      exact ⟨c, cs.takeWhile isWordPart, String.toList_ofList, start, List.all_takeWhile⟩
  by_cases keyword : keywords.isKeyword (String.ofList taken) = true
  · simp only [Token.Sound, wordKind, keyword, if_true]
    exact ⟨word, trivial⟩
  · simp only [Token.Sound, wordKind, keyword]
    exact .inl ⟨word, by simp⟩

theorem sound_of_quotedName? (h : quotedName? cs = some (taken, rest)) :
    Token.Sound keywords ⟨.identifier, String.ofList taken, p⟩ := by
  unfold quotedName? at h
  split at h
  · rename_i cs
    split at h
    · rename_i c name q left before after
      simp only [Option.some.injEq, Prod.mk.injEq] at h
      obtain ⟨rfl, rfl⟩ := h
      have quote : (q != '\x60') = false := by
        have := List.head?_dropWhile_not (· != '\x60') cs
        simpa [after] using this
      have inside : ∀ d ∈ c :: name, (d != '\x60') = true := by
        rw [← before]
        exact List.all_eq_true.1 List.all_takeWhile
      obtain rfl : q = '\x60' := by simpa using quote
      exact .inr ⟨c :: name, by simp, by simp, fun h => by simpa using inside _ h⟩
    · simp at h
  · simp at h

theorem sound_of_closedBy? {quote : Char} (isQuote : quote = '\x27' ∨ quote = '"')
    (h : closedBy? quote cs = some (taken, rest)) :
    Token.Sound keywords ⟨.string, String.ofList taken, p⟩ := by
  unfold closedBy? at h
  split at h
  · rename_i q left after
    simp only [Option.some.injEq, Prod.mk.injEq] at h
    obtain ⟨rfl, rfl⟩ := h
    have close : (q != quote) = false := by
      have := List.head?_dropWhile_not (p := (· != quote)) (l := cs)
      simpa [after] using this
    obtain rfl : q = quote := by simpa using close
    refine ⟨q, cs.takeWhile (· != q), isQuote, by simp, fun h => ?_⟩
    simpa using List.all_eq_true.1 (List.all_takeWhile (p := (· != q)) (l := cs)) q h
  · simp at h

theorem sound_of_operator? (h : operator? cs = some (taken, rest)) :
    Token.Sound keywords ⟨.operator, String.ofList taken, p⟩ := by
  unfold operator? at h
  simp only [Token.Sound, String.toList_ofList]
  split at h
  · simp at h
  · simp only [Option.ite_none_right_eq_some, Option.some.injEq, Prod.mk.injEq] at h
    obtain ⟨single, rfl, -⟩ := h
    exact .inr ⟨_, by simpa using single, rfl⟩
  · split at h
    · rename_i double
      obtain ⟨rfl, -⟩ : _ ∧ _ := by simpa using h
      exact .inl (by simpa using double)
    · split at h
      · rename_i single
        obtain ⟨rfl, -⟩ : _ ∧ _ := by simpa using h
        exact .inr ⟨_, by simpa using single, rfl⟩
      · simp at h

theorem isSigned_eq_false_of_kind {kind : Kind} {text : String} (h : kind ≠ .number) :
    Token.isSigned ⟨kind, text, p⟩ = false := by
  cases kind <;> first | rfl | exact absurd rfl h

theorem mantissa?_head (h : mantissa? cs = some (taken, rest)) :
    ∃ c m, taken = c :: m ∧ (c.isDigit = true ∨ c = '.') := by
  have starts (more : List Char) (some : (digits cs).1 ++ more ≠ [])
      (point : ∀ c ∈ more.head?, c = '.') :
      ∃ c m, (digits cs).1 ++ more = c :: m ∧ (c.isDigit = true ∨ c = '.') := by
    have all : (digits cs).1.all Char.isDigit = true := List.all_takeWhile
    revert some all
    cases (digits cs).1 with
    | nil =>
      intro some _
      obtain ⟨c, m, rfl⟩ := List.exists_cons_of_ne_nil some
      exact ⟨c, m, rfl, .inr (point c rfl)⟩
    | cons c ds =>
      intro _ all
      exact ⟨c, ds ++ more, rfl, .inl (List.all_eq_true.1 all c List.mem_cons_self)⟩
  simp only [mantissa?] at h
  rcases orElse_eq_some h with found | ⟨-, found⟩
  · split at found
    · split at found
      · simp at found
      · simp only [Option.some.injEq, Prod.mk.injEq] at found
        obtain ⟨rfl, -⟩ := found
        exact starts _ (by simp) (by simp)
    · simp at found
  · split at found
    · simp at found
    · rename_i some
      simp only [Option.some.injEq, Prod.mk.injEq] at found
      obtain ⟨rfl, -⟩ := found
      simpa using starts [] (by simpa using some) (by simp)

/-- Without a sign allowed in front, a number starts with a digit or a point. -/
theorem isSigned_of_number? (h : number? false cs = some (taken, rest)) :
    Token.isSigned ⟨.number, String.ofList taken, p⟩ = false := by
  have unsigned : (sign false cs).1 = [] ∧ (sign false cs).2 = cs := by cases cs <;> simp [sign]
  simp only [number?, unsigned, Option.map_eq_some_iff, Prod.exists, Prod.mk.injEq] at h
  obtain ⟨m, left, mantissa, rfl, -⟩ := h
  obtain ⟨c, m, rfl, digit⟩ := mantissa?_head mantissa
  simp only [Token.isSigned, String.toList_ofList, List.nil_append, List.cons_append,
    List.head?_cons, Option.any_some, beq_self_eq_true, Bool.true_and, Bool.or_eq_false_iff,
    beq_eq_false_iff_ne]
  constructor <;> (rintro rfl; revert digit; decide)

theorem sound_of_scan {c : Cut} {kind : Kind} (h : scan keywords signed cs = some c)
    (token : c.kind = some kind) :
    Token.Sound keywords ⟨kind, String.ofList c.taken, p⟩ ∧
      (signed = false → Token.isSigned ⟨kind, String.ofList c.taken, p⟩ = false) := by
  have blank {answer : Option Split} (found : answer.map (cut none) = some c) : False := by
    obtain ⟨s, -, rfl⟩ := Option.map_eq_some_iff.1 found
    simp [cut] at token
  have of {answer : Option Split} {kinds : Split → Kind}
      (found : answer.map (fun s => cut (some (kinds s)) s) = some c) :
      ∃ s, answer = some s ∧ c.taken = s.1 ∧ kind = kinds s := by
    obtain ⟨s, hs, rfl⟩ := Option.map_eq_some_iff.1 found
    exact ⟨s, hs, rfl, (Option.some.inj token).symm⟩
  -- The scanners in their order. Those of blanks and comments make no token.
  unfold scan at h
  split at h
  · simp only [Option.map_eq_some_iff] at h
    obtain ⟨_, _, rfl⟩ := h
    simp at token
  rcases orElse_eq_some h with found | ⟨-, h⟩
  · exact (blank found).elim
  rcases orElse_eq_some h with found | ⟨-, h⟩
  · obtain ⟨s, hs, taken, rfl⟩ := of found
    rw [taken]
    refine ⟨sound_of_word? hs, fun _ => isSigned_eq_false_of_kind ?_⟩
    unfold wordKind
    split <;> decide
  rcases orElse_eq_some h with found | ⟨-, h⟩
  · exact (blank found).elim
  rcases orElse_eq_some h with found | ⟨-, h⟩
  · obtain ⟨s, hs, taken, rfl⟩ := of found
    rw [taken]
    exact ⟨sound_of_quotedName? hs, fun _ => isSigned_eq_false_of_kind (by decide)⟩
  rcases orElse_eq_some h with found | ⟨-, h⟩
  · obtain ⟨s, hs, taken, rfl⟩ := of found
    rw [taken]
    refine ⟨trivial, ?_⟩
    rintro rfl
    exact isSigned_of_number? hs
  rcases orElse_eq_some h with found | ⟨-, found⟩
  · obtain ⟨s, hs, taken, rfl⟩ := of found
    rw [taken]
    refine ⟨?_, fun _ => isSigned_eq_false_of_kind (by decide)⟩
    unfold string? at hs
    split at hs
    · exact sound_of_closedBy? (.inl rfl) hs
    · exact sound_of_closedBy? (.inr rfl) hs
    · simp at hs
  · obtain ⟨s, hs, taken, rfl⟩ := of found
    rw [taken]
    exact ⟨sound_of_operator? hs, fun _ => isSigned_eq_false_of_kind (by decide)⟩

end Scan

theorem scanned_of_tokensFrom {keywords : Keywords} {signed : Bool} {p : Position}
    {cs : List Char} {ts : List Token} (h : tokensFrom keywords signed p cs = .ok ts) :
    Scanned keywords ts ∧ (signed = false → ∀ t ∈ ts.head?, t.isSigned = false) := by
  induction length : cs.length using Nat.strongRecOn generalizing signed p cs ts with
  | ind n ih =>
    cases found : scan keywords signed cs with
    | none =>
      by_cases empty : cs = []
      · obtain rfl : [] = ts := by simpa [empty] using h
        exact ⟨⟨by simp, .nil⟩, by simp⟩
      · simp [tokensFrom_of_scan_eq_none found empty] at h
    | some c =>
      have shorter : c.rest.length < n := length ▸ length_rest_lt found
      rw [tokensFrom_of_scan_eq_some found] at h
      cases isToken : c.kind with
      | none =>
        simp only [isToken] at h
        exact ih _ shorter h rfl
      | some kind =>
        obtain ⟨sound, unsigned⟩ := sound_of_scan (p := p) found isToken
        simp only [isToken] at h
        cases later : tokensFrom keywords
            (!(Token.mk kind (String.ofList c.taken) p).endsOperand keywords)
            (p.after c.taken) c.rest with
        | error e => simp [later, Except.map] at h
        | ok ts' =>
          obtain rfl : _ :: ts' = ts := by simpa [later, Except.map] using h
          obtain ⟨⟨sounds, chain⟩, first⟩ := ih _ shorter later rfl
          refine ⟨⟨List.forall_mem_cons.2 ⟨sound, sounds⟩, ?_⟩, by simpa using unsigned⟩
          exact List.isChain_cons.2 ⟨fun t' ht' ends => first (by simpa using ends) t' ht', chain⟩

theorem scanned_of_tokenize {keywords : Keywords} {text : String} {ts : List Token}
    (h : tokenize keywords text = .ok ts) : Scanned keywords ts :=
  (scanned_of_tokensFrom h).1

theorem Scanned.of_append {keywords : Keywords} {ts ts' : List Token}
    (h : Scanned keywords (ts ++ ts')) : Scanned keywords ts' :=
  ⟨fun t ht => h.1 t (List.mem_append_right ts ht), h.2.right_of_append⟩

open Text

theorem isWordStart_toUpper {c : Char} (h : Scan.isWordStart c = true) :
    Scan.isWordStart c.toUpper = true := by
  have same : Scan.isWordStart c.toUpper = Scan.isWordStart c :=
    toUpper_congr (x := true) (fun d alpha => by simp [Scan.isWordStart, isLetter_of_isAlpha alpha]) c
  rw [same, h]

/-- Whether the text is a word at least at its start. -/
def startsWord (text : String) : Bool :=
  text.toList.head?.any fun c => Scan.isWordStart c.toUpper

theorem sameWord_eq_false {text literal : String} (word : IsWord text)
    (odd : startsWord literal = false) : sameWord text literal = false := by
  cases same : sameWord text literal with
  | false => rfl
  | true =>
    obtain ⟨c, cs, whole, start, -⟩ := word
    have letters := congrArg String.toList (upper_eq_of_sameWord same)
    simp only [upper, String.toList_ofList, whole, List.map_cons] at letters
    cases chars : literal.toList with
    | nil => simp [chars] at letters
    | cons d ds =>
      simp only [chars, List.map_cons, List.cons.injEq] at letters
      simp [startsWord, chars, ← letters.1, isWordStart_toUpper start] at odd

theorem isWordPart_ne {c : Char} (h : Scan.isWordStart c = true ∨ Scan.isWordPart c = true) :
    c ≠ '\x60' := by
  rintro rfl
  revert h
  decide

end TableDdl
