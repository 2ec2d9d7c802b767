import TableDdl.Proofs.Script.Pieces
import TableDdl.Proofs.Token.Numbers
import TableDdl.Proofs.Token.Tiling

/-!
# The longest token

A token is followed by nothing that it could have gone on with: a word by no letter, digit or
underscore, a number by nothing that makes it a longer one, and an angle by no character that
makes an operator of two with it. Main statement: that holds of every token of a text, and a sign
is cut from the number after it just where an operand ends before it.
-/
namespace TableDdl

open Scan Text

variable {keywords : Keywords} {signed : Bool} {p : Position} {kind : Kind}
  {cs before taken rest : List Char} {front ts : List Token} {t : Token}

/-- What the token grammar says of a token where `previous` is the token before it, the text goes
on with `rest` and `before` comes before it. -/
structure Token.Munched (keywords : Keywords) (previous : Option Token) (before rest : List Char)
    (t : Token) : Prop where
  word : t.isWord = true → IsWord t.text ∧ (∀ c ∈ rest.head?, isWordPart c = false) ∧
    (t.kind = .keyword ↔ Text.upper t.text ∈ keywords.words)
  quotedName : t.kind = .identifier → t.isWord = false →
    ∃ name, t.text.toList = '\x60' :: (name ++ ['\x60']) ∧ name ≠ [] ∧ '\x60' ∉ name
  string : t.kind = .string → ∃ quote content, (quote = '\x27' ∨ quote = '"') ∧
    t.text.toList = quote :: (content ++ [quote]) ∧ quote ∉ content ∧
    let trimmed : Script.Slice := ⟨1, some (byteLength t.text.toList - 1)⟩
    trimmed.InBounds t.text.toList ∧
      sliceBytes 1 (byteLength t.text.toList - 1) t.text.toList = content
  number : t.kind = .number → IsNumber t.text.toList ∧ ∀ longer, IsNumber longer →
    longer <+: t.text.toList ++ rest → longer.length ≤ t.text.toList.length
  operator : t.kind = .operator → t.text.toList ∈ doubleOperators ∨
    ∃ c ∈ singleOperators, t.text.toList = [c]
  whole : t.kind = .operator →
    (t.text = "<" → ∀ c ∈ rest.head?, c ≠ '>' ∧ c ≠ '=') ∧
    (t.text = ">" → rest.head? ≠ some '=' ∧ before.getLast? ≠ some '<')
  signed : t.isSigned = true → ∀ last ∈ previous, last.endsOperand keywords = false
  sign : t.kind = .operator → t.text = "+" ∨ t.text = "-" →
    ∀ unsigned, IsMantissa unsigned → unsigned <+: rest →
      ∃ last ∈ previous, last.endsOperand keywords = true

namespace Scan

/-- The texts may stand side by side without an angle that belongs to the second one. -/
def Apart (before after : List Char) : Prop :=
  before.getLast? = some '<' → ∀ c ∈ after.head?, c ≠ '>' ∧ c ≠ '='

theorem Apart.append {a b c : List Char} (first : Apart a (b ++ c)) (second : Apart b c) :
    Apart (a ++ b) c := by
  cases b with
  | nil => simpa using first
  | cons d b =>
    rw [Apart, List.getLast?_append_of_ne_nil _ (List.cons_ne_nil d b)]
    exact second

theorem Apart.of_append {a b c : List Char} (h : Apart a (b ++ c)) : Apart a b := by
  intro angle d hd
  cases b with
  | nil => cases hd
  | cons _ b => exact h angle d hd

theorem apart_of_getLast? {c : Char} (last : before.getLast? = some c) (other : c ≠ '<')
    (after : List Char) : Apart before after :=
  fun angle => absurd (Option.some.inj (last.symm.trans angle)) other

theorem EndsLine.apart (ends : EndsLine rest) (before : List Char) : Apart before rest := by
  rintro - c hc
  rcases ends with rfl | ⟨more, rfl⟩ | ⟨more, rfl⟩
  · cases hc
  · cases hc
    decide
  · cases hc
    decide

theorem Filler.apart (filler : Filler rest taken) : Apart taken rest := by
  cases filler with
  | blanks some blank =>
    have space := blank _ (List.getLast_mem some)
    refine apart_of_getLast? (List.getLast?_eq_some_getLast some) ?_ rest
    intro angle
    rw [angle] at space
    cases space
  | @block body _ =>
    have last : ('/' :: '*' :: (body ++ ['*', '/'])).getLast? = some '/' := by
      simp [List.getLast?_cons]
    exact apart_of_getLast? last (by decide) rest
  | hash _ ends => exact ends.apart _
  | hyphens _ _ ends => exact ends.apart _

theorem taken_of_double {op : List Char} (mem : op ∈ doubleOperators)
    (found : scan keywords signed (op ++ cs) = some ⟨some kind, taken, rest⟩) : taken = op := by
  rw [scan_double mem] at found
  exact (Cut.mk.inj (Option.some.inj found)).2.1.symm

/-- What begins an operator of two characters is not taken alone. -/
theorem ne_double {c d : Char} (double : [c, d] ∈ doubleOperators)
    (found : scan keywords signed (c :: rest) = some ⟨some kind, [c], rest⟩) :
    rest.head? ≠ some d := by
  intro first
  obtain ⟨more, rfl⟩ := List.head?_eq_some_iff.1 first
  have both : [c] = [c, d] := taken_of_double double found
  cases both

theorem getLast?_ne_angle (sound : t.Sound keywords) (notNumber : t.kind ≠ .number)
    (single : t.text.toList ≠ ['<']) : t.text.toList.getLast? ≠ some '<' := by
  have word (isWord : IsWord t.text) : t.text.toList.getLast? ≠ some '<' := by
    obtain ⟨c, cs, whole, start, parts⟩ := isWord
    rw [whole]
    intro last
    rcases List.mem_cons.1 (List.mem_of_getLast? last) with rfl | mem
    · exact absurd start (by decide)
    · exact absurd (List.all_eq_true.1 parts _ mem) (by decide)
  have closed (c : Char) (body : List Char) (other : c ≠ '<')
      (whole : t.text.toList = c :: (body ++ [c])) : t.text.toList.getLast? ≠ some '<' := by
    rw [whole, ← List.cons_append, List.getLast?_concat]
    exact fun same => other (Option.some.inj same)
  unfold Token.Sound at sound
  split at sound
  · exact word sound.1
  · rcases sound with ⟨isWord, -⟩ | ⟨name, whole, -⟩
    · exact word isWord
    · exact closed _ name (by decide) whole
  · obtain ⟨quote, content, isQuote, whole, -⟩ := sound
    exact closed quote content (by rcases isQuote with rfl | rfl <;> decide) whole
  · exact absurd ‹_› notNumber
  · rcases sound with double | ⟨c, -, whole⟩
    · have ends : ∀ op ∈ doubleOperators, op.getLast? ≠ some '<' := by decide
      exact ends _ double
    · rw [whole] at single ⊢
      rintro ⟨⟩
      exact single rfl

theorem apart_of_scan {found? : Option Kind}
    (found : scan keywords signed cs = some ⟨found?, taken, rest⟩) : Apart taken rest := by
  cases found? with
  | none => exact (filler_of_scan found).apart
  | some kind =>
    by_cases isNumber : kind = .number
    · subst isNumber
      obtain ⟨c, last, digit⟩ := (isNumber_of_number? (number?_of_scan found)).last
      refine apart_of_getLast? last ?_ rest
      rintro rfl
      cases digit
    · by_cases single : taken = ['<']
      · subst single
        have whole : ['<'] ++ rest = cs := (scan_divides found).1
        rw [← whole] at found
        rintro - c hc
        constructor
        · rintro rfl
          exact ne_double (by decide) found hc
        · rintro rfl
          exact ne_double (by decide) found hc
      · have sound : Token.Sound keywords ⟨kind, String.ofList taken, .start⟩ :=
          (sound_of_scan found rfl).1
        have other := getLast?_ne_angle sound isNumber (by rwa [String.toList_ofList])
        rw [String.toList_ofList] at other
        exact fun angle => absurd angle other

end Scan

namespace Token

theorem keyword_iff_of_isWord (sound : t.Sound keywords) (word : t.isWord = true) :
    t.kind = .keyword ↔ Text.upper t.text ∈ keywords.words := by
  have keyword : keywords.isKeyword t.text = true ↔ Text.upper t.text ∈ keywords.words := by
    simp [Keywords.isKeyword]
  obtain ⟨isWord, kind | ⟨kind, -⟩⟩ := isWord_cases sound word
  · rw [Sound, kind] at sound
    simp [kind, ← keyword, sound.2]
  · rw [Sound, kind] at sound
    rcases sound with ⟨-, free⟩ | ⟨name, quoted, -⟩
    · simp [kind, ← keyword, free]
    · simp [Token.isWord, kind, quoted] at word

theorem quoted_of_isWord (sound : t.Sound keywords) (isName : t.kind = .identifier)
    (quoted : t.isWord = false) :
    ∃ name, t.text.toList = '\x60' :: (name ++ ['\x60']) ∧ name ≠ [] ∧ '\x60' ∉ name := by
  rw [Sound, isName] at sound
  rcases sound with ⟨⟨c, cs, whole, start, -⟩, -⟩ | quotes
  · have bare := isWordPart_ne (.inl start)
    simp [Token.isWord, isName, whole, bare] at quoted
  · exact quotes

end Token

/-- The token is what is scanned between `before` and `rest`. -/
structure Token.StandsAt (keywords : Keywords) (signed : Bool) (p : Position)
    (before rest : List Char) (t : Token) : Prop where
  place : t.position = p.after before
  found : scan keywords signed (t.text.toList ++ rest) = some ⟨some t.kind, t.text.toList, rest⟩
  apart : Apart before t.text.toList

theorem Token.StandsAt.after {first : List Char}
    (h : t.StandsAt keywords signed (p.after first) before rest)
    (apart : Apart first (before ++ (t.text.toList ++ rest))) :
    t.StandsAt keywords signed p (first ++ before) rest where
  place := by rw [h.place, Position.after_append]
  found := h.found
  apart := by
    rw [← List.append_assoc] at apart
    exact apart.of_append.append h.apart

/-- Each token of a text is scanned at its place. -/
theorem Lexes.standsAt (h : Lexes keywords signed p cs ts) :
    ∀ front t back, ts = front ++ t :: back → ∃ before rest,
      cs = before ++ (t.text.toList ++ rest) ∧
      t.StandsAt keywords (signedAfter keywords signed front) p before rest := by
  -- On the cuts: what stands in front of a token grows by each cut before it.
  induction h with
  | done => simp
  | @space _ p c cs ts blank _ ih =>
    rintro front t back rfl
    obtain ⟨before, rest, rfl, stands⟩ := ih front t back rfl
    have other : c ≠ '<' := by
      rintro rfl
      cases blank
    have stands : t.StandsAt keywords _ (p.after [c]) before rest := stands
    exact ⟨c :: before, rest, rfl, stands.after (apart_of_getLast? rfl other _)⟩
  | @comment _ p c cs taken left ts _ found _ ih =>
    rintro front t back rfl
    obtain ⟨before, rest, rfl, stands⟩ := ih front t back rfl
    refine ⟨taken ++ before, rest, ?_, stands.after (apart_of_scan found)⟩
    rw [List.append_assoc]
    exact (scan_divides found).1.symm
  | @token signed p c cs taken left kind ts _ found _ ih =>
    intro front t back whole
    have divides := (scan_divides found).1
    rcases List.cons_eq_append_iff.1 whole with ⟨rfl, same⟩ | ⟨front, rfl, rfl⟩
    · obtain ⟨rfl, -⟩ := List.cons.inj same
      refine ⟨[], left, by simpa using divides.symm, ⟨rfl, ?_, nofun⟩⟩
      rwa [String.toList_ofList, divides]
    · obtain ⟨before, rest, rfl, stands⟩ := ih front t back rfl
      refine ⟨taken ++ before, rest, ?_, stands.after (apart_of_scan found)⟩
      rw [List.append_assoc]
      exact divides.symm

theorem signedAfter_eq_false_iff : signedAfter keywords true front = false ↔
    ∃ last ∈ front.getLast?, last.endsOperand keywords = true := by
  rcases List.eq_nil_or_concat front with rfl | ⟨front, last, rfl⟩
  · simp [signedAfter]
  · simp [signedAfter]

namespace Token.StandsAt

variable (h : t.StandsAt keywords signed p before rest)
include h

theorem sound : t.Sound keywords ∧ (signed = false → t.isSigned = false) := by
  have sound := sound_of_scan (p := t.position) h.found rfl
  rwa [String.ofList_toList] at sound

theorem stops_word (isWord : IsWord t.text) : ∀ c ∈ rest.head?, isWordPart c = false := by
  obtain ⟨c, cs, whole, start, parts⟩ := isWord
  have found := h.found
  have parted := List.takeWhile_append_dropWhile (p := isWordPart) (l := rest)
  have stop : ∀ d ∈ (rest.dropWhile isWordPart).head?, isWordPart d = false := by
    intro d hd
    simpa [Option.mem_def.1 hd] using List.head?_dropWhile_not isWordPart rest
  have all : ∀ d ∈ cs ++ rest.takeWhile isWordPart, isWordPart d = true := by
    intro d hd
    rcases List.mem_append.1 hd with hd | hd
    · exact List.all_eq_true.1 parts d hd
    · exact List.all_eq_true.1 List.all_takeWhile d hd
  have longest : scan keywords signed
      (c :: (cs ++ rest.takeWhile isWordPart) ++ rest.dropWhile isWordPart) = _ :=
    scan_word start all stop
  have same : c :: (cs ++ rest.takeWhile isWordPart) ++ rest.dropWhile isWordPart =
      c :: cs ++ rest := by
    simp [parted]
  rw [same, ← whole, found] at longest
  have none : rest = rest.dropWhile isWordPart := (Cut.mk.inj (Option.some.inj longest)).2.2
  rwa [none]

/-- A sign is scanned alone before a number only if no sign is allowed. -/
theorem signed_eq_false {c : Char} {unsigned : List Char} (isOperator : t.kind = .operator)
    (text : t.text.toList = [c]) (isSign : c = '+' ∨ c = '-') (isMantissa : IsMantissa unsigned)
    (ahead : unsigned <+: rest) : signed = false := by
  cases signed with
  | false => rfl
  | true =>
    obtain ⟨more, rfl⟩ := ahead
    obtain ⟨longer, left, mantissa, -⟩ := mantissa?_append isMantissa more
    obtain ⟨s, number⟩ : ∃ s, number? true (c :: (unsigned ++ more)) = some s := by
      rw [number?, sign, if_pos (by simpa using isSign)]
      exact ⟨_, congrArg (Option.map _) mantissa⟩
    have found := h.found
    obtain ⟨d, ds, first, start⟩ := isMantissa.head
    have single : (unsigned ++ more).head? ≠ some '-' := by
      rw [first]
      rintro ⟨⟩
      rcases start with digit | point
      · cases digit
      · cases point
    rw [text, isOperator, List.singleton_append, scan_of_number? (.inl ⟨isSign, single⟩) number]
      at found
    cases (Cut.mk.inj (Option.some.inj found)).1

omit h in
/-- A literal without its first and last byte is what stands between its quotes. -/
theorem trimmed_literal {text content : List Char} {quote : Char}
    (isQuote : quote = '\x27' ∨ quote = '"') (whole : text = quote :: (content ++ [quote])) :
    Script.Slice.InBounds text ⟨1, some (byteLength text - 1)⟩ ∧
      sliceBytes 1 (byteLength text - 1) text = content := by
  have small : quote.utf8Size = 1 := by rcases isQuote with rfl | rfl <;> decide
  have start : 1 = byteLength [quote] := by simp [small]
  have stop : byteLength text - 1 = byteLength ([quote] ++ content) := by
    simp [whole, small, Nat.add_comm]
  have parts : text = [quote] ++ (content ++ [quote]) := whole
  rw [stop, start, parts]
  exact ⟨⟨[quote], content, [quote], rfl, rfl, rfl⟩, sliceBytes_byteLength ..⟩

omit h in
theorem munched (h : t.StandsAt keywords (signedAfter keywords true front) p before rest) :
    t.Munched keywords front.getLast? before rest := by
  have sound := h.sound.1
  have found := h.found
  have text {c : Char} (isOperator : t.text = String.ofList [c]) : t.text.toList = [c] := by
    rw [isOperator, String.toList_ofList]
  constructor
  case word =>
    intro word
    obtain ⟨isWord, -⟩ := isWord_cases sound word
    exact ⟨isWord, h.stops_word isWord, keyword_iff_of_isWord sound word⟩
  case quotedName => exact quoted_of_isWord sound
  case string =>
    intro isString
    rw [Token.Sound, isString] at sound
    obtain ⟨quote, content, isQuote, whole, free⟩ := sound
    exact ⟨quote, content, isQuote, whole, free, trimmed_literal isQuote whole⟩
  case number =>
    intro isNumber
    rw [isNumber] at found
    have number := number?_of_scan found
    exact ⟨isNumber_of_number? number,
      fun longer grammar front => (isPrefix_of_number? number grammar front).length_le⟩
  case operator =>
    intro isOperator
    rwa [Token.Sound, isOperator] at sound
  -- Only an angle may be part of a longer operator, with what comes after it or before it.
  case whole =>
    refine fun _ => ⟨fun angle => ?_, fun angle => ?_⟩
    · have chars := text angle
      have next := apart_of_scan found
      rw [chars] at next
      exact next rfl
    · have chars := text angle
      rw [chars] at found
      refine ⟨ne_double (by decide) found, fun last => ?_⟩
      exact (h.apart last '>' (by rw [chars]; rfl)).1 rfl
  case signed =>
    intro isSigned last isLast
    cases ends : last.endsOperand keywords with
    | false => rfl
    | true =>
      have off := h.sound.2 (signedAfter_eq_false_iff.2 ⟨last, isLast, ends⟩)
      cases off.symm.trans isSigned
  case sign =>
    rintro isOperator (plus | minus) unsigned isMantissa ahead
    · exact signedAfter_eq_false_iff.1
        (h.signed_eq_false isOperator (text plus) (.inl rfl) isMantissa ahead)
    · exact signedAfter_eq_false_iff.1
        (h.signed_eq_false isOperator (text minus) (.inr rfl) isMantissa ahead)

end Token.StandsAt

/-- Each token of a text follows the token grammar at its place and is as long as it can be. -/
theorem munched_of_tokenize {text : String} (cut : tokenize keywords text = .ok ts) :
    ∀ front t back, ts = front ++ t :: back → ∃ before rest,
      text.toList = before ++ (t.text.toList ++ rest) ∧
      t.position = Position.start.after before ∧
      t.Munched keywords front.getLast? before rest := by
  intro front t back whole
  obtain ⟨before, rest, parts, stands⟩ := (lexes_of_tokenize cut).standsAt front t back whole
  exact ⟨before, rest, parts, stands.place, stands.munched⟩

/-- After a number the hyphen stands alone, and the one after it belongs to the next number. -/
theorem munched_of_tokenize_hyphens :
    let front : List Token :=
      [⟨.identifier, "a", ⟨0, 1, 1⟩⟩, ⟨.operator, "<=", ⟨1, 1, 2⟩⟩, ⟨.number, "-1", ⟨3, 1, 4⟩⟩]
    let hyphen : Token := ⟨.operator, "-", ⟨5, 1, 6⟩⟩
    let back : List Token := [⟨.number, "-.5", ⟨6, 1, 7⟩⟩]
    tokenize .mysql "a<=-1--.5" = .ok (front ++ hyphen :: back) ∧ ∃ before rest,
      "a<=-1--.5".toList = before ++ (hyphen.text.toList ++ rest) ∧
      hyphen.position = Position.start.after before ∧
      hyphen.Munched .mysql front.getLast? before rest := by
  intro front hyphen back
  have cut : tokenize .mysql "a<=-1--.5" = .ok (front ++ hyphen :: back) :=
    Parser.eq_ok_of_toOption (by decide +kernel)
  exact ⟨cut, munched_of_tokenize cut front hyphen back rfl⟩

end TableDdl
