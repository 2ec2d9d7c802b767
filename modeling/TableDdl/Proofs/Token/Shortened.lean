import Mathlib.Data.List.Infix
import TableDdl.Proofs.Text.Trim
import TableDdl.Proofs.Token.Trimming
import TableDdl.Script

/-!
# Texts that are cut off

A text that is cut off before a semicolon has the tokens up to there, and one that is cut off
where only blanks follow has all of them. There is one exception: two hyphens that were operators
open a comment where the text now ends, or where a lone carriage return no longer ends their
line. Then the text had two hyphens side by side among its tokens.
-/
namespace TableDdl

open Scan Text

variable {keywords : Keywords} {signed : Bool} {p : Position} {c : Char} {cs x : List Char}
  {ts : List Token}

/-- The operator that opens a comment together with another one. -/
def Token.isHyphen (t : Token) : Bool := t.kind == .operator && t.text == "-"

/-- No two hyphens are operators side by side. -/
def HyphensApart (ts : List Token) : Prop :=
  ts.IsChain fun t t' => ¬(t.isHyphen = true ∧ t'.isHyphen = true)

instance (ts : List Token) : Decidable (HyphensApart ts) :=
  inferInstanceAs (Decidable (ts.IsChain fun t t' => ¬(t.isHyphen = true ∧ t'.isHyphen = true)))

theorem HyphensApart.tail {t : Token} (h : HyphensApart (t :: ts)) : HyphensApart ts :=
  (List.isChain_cons.1 h).2

theorem HyphensApart.not_hyphens {t t' : Token} (h : HyphensApart (t :: t' :: ts))
    (first : t.isHyphen = true) : t'.isHyphen ≠ true :=
  fun second => (List.isChain_cons_cons.1 h).1 ⟨first, second⟩

/-- Where a comment by itself is none within the text, it is two operators there. -/
theorem Lexes.hyphens (stops : Stops x) (lost : ¬ KeepsComment x cs)
    (h : Lexes keywords signed p (cs ++ x) ts) :
    ∃ t t' us, ts = t :: t' :: us ∧ t.isHyphen = true ∧ t'.isHyphen = true := by
  obtain ⟨short, long⟩ := Classical.not_imp.1 lost
  have none : lineComment? (cs ++ x) = none := by simpa using long
  obtain ⟨s, comment⟩ := Option.isSome_iff_exists.1 short
  rw [lineComment?_eq, Option.bind_eq_some_iff] at comment
  obtain ⟨⟨mark, left⟩, opened, -⟩ := comment
  obtain ⟨whole, isHash | ⟨isHyphens, blank⟩⟩ := opener?_cases opened
  · obtain rfl : cs = '#' :: left := by rw [← whole, isHash]; rfl
    have nothing : scan keywords signed ('#' :: (left ++ x)) = Option.none := scan_hash none
    have tokens := h.tokensFrom_eq
    rw [List.cons_append, tokensFrom_of_scan_eq_none nothing (List.cons_ne_nil _ _)] at tokens
    cases tokens
  · obtain rfl : cs = '-' :: '-' :: left := by rw [← whole, isHyphens]; rfl
    have next : ∀ d ∈ (left ++ x).head?, d.isDigit = false ∧ d ≠ '.' ∧ d ≠ '-' := by
      intro d hd
      cases left with
      | nil =>
        exact ⟨stops.notDigit d hd, fun same => stops.head_ne (.inr (by decide)) (same ▸ hd),
          fun same => stops.head_ne (.inr (by decide)) (same ▸ hd)⟩
      | cons e left =>
        obtain rfl : e = d := Option.some.inj hd
        have ne {d : Char} (h : isBlank d = false) : e ≠ d := by
          rintro rfl
          exact Bool.false_ne_true (h.symm.trans blank)
        exact ⟨isDigit_eq_false_of_isBlank blank, ne (by decide), ne (by decide)⟩
    have single : (left ++ x).head? ≠ some '-' := fun hd => (next _ hd).2.2 rfl
    obtain ⟨us, rfl, later⟩ := h.of_token (scan_hyphen none fun d hd => by
      obtain rfl : '-' = d := Option.some.inj hd
      decide)
    obtain ⟨vs, rfl, -⟩ := later.of_token (scan_hyphen
      (lineComment?_eq_none (by decide) fun _ => single)
      fun d hd => ⟨(next d hd).1, (next d hd).2.1⟩)
    exact ⟨_, _, vs, rfl, rfl, rfl⟩

/-- Where the text is cut off, no operators come to open a comment. -/
def Settled (x cs : List Char) (ts : List Token) : Prop :=
  (∀ b, b <:+ cs → KeepsComment x b) ∨ HyphensApart ts

namespace Settled

/-- Hyphens stand side by side among the tokens of the text alone, or nowhere. -/
theorem keeps {later : List Token} (h : Settled x cs ts) (stops : Stops x)
    (lexes : Lexes keywords signed p (cs ++ x) (ts ++ later))
    (next : ∀ t ∈ later.head?, t.isHyphen = false) : KeepsComment x cs := by
  rcases h with all | apart
  · exact all cs (List.suffix_refl cs)
  refine Classical.byContradiction fun lost => ?_
  obtain ⟨t, t', us, same, first, second⟩ := lexes.hyphens stops lost
  rcases List.append_eq_cons_iff.1 same with ⟨rfl, rfl⟩ | ⟨us', rfl, others⟩
  · rw [next t rfl] at first
    cases first
  rcases List.append_eq_cons_iff.1 others.symm with ⟨rfl, rfl⟩ | ⟨us'', rfl, -⟩
  · rw [next t' rfl] at second
    cases second
  · exact apart.not_hyphens first second

theorem of_suffix {b : List Char} (h : Settled x cs ts) (suffix : b <:+ cs) : Settled x b ts :=
  h.imp_left fun all b' hb' => all b' (hb'.trans suffix)

theorem tail {t : Token} {b : List Char} (h : Settled x cs (t :: ts)) (suffix : b <:+ cs) :
    Settled x b ts :=
  (h.of_suffix suffix).imp_right HyphensApart.tail

end Settled

/-- A line feed follows every carriage return. -/
def ReturnsFed (cs : List Char) : Prop := ∀ b, '\r' :: b <:+ cs → b.head? = some '\n'

instance (cs : List Char) : Decidable (ReturnsFed cs) :=
  decidable_of_iff (∀ b ∈ cs.tails, b.head? = some '\r' → b.tail.head? = some '\n') <| by
    simp only [List.mem_tails, ReturnsFed]
    constructor
    · exact fun h b suffix => h _ suffix rfl
    · rintro h (_ | ⟨c, b⟩) suffix first
      · cases first
      · obtain rfl := Option.some.inj first
        exact h b suffix

namespace ReturnsFed

theorem of_suffix {b : List Char} (h : ReturnsFed cs) (suffix : b <:+ cs) : ReturnsFed b :=
  fun a within => h a (within.trans suffix)

theorem of_append (h : ReturnsFed (cs ++ x)) (other : x.head? ≠ some '\n') : ReturnsFed cs := by
  rintro b ⟨front, rfl⟩
  have first : (b ++ x).head? = some '\n' := h (b ++ x) ⟨front, by simp⟩
  cases b with
  | nil => exact absurd first other
  | cons d b => exact first

/-- Where every line has an end, so has the first. -/
theorem isSome_lineRest? (h : ReturnsFed cs) : (lineRest? cs).isSome = true := by
  rcases unbroken_or cs with whole | ⟨front, e, more, rfl, whole, ends⟩
  · rw [lineRest?_of_unbroken whole]
    rfl
  · rw [lineRest?_broken whole ends, if_neg]
    · rfl
    · rintro ⟨rfl, lone⟩
      exact lone (h more (List.suffix_append front _))

theorem keepsComment (h : ReturnsFed (cs ++ x)) (hyphen : x.head? ≠ some '-')
    (blank : cs = ['-', '-'] → x.head?.all isBlank = true) : KeepsComment x cs := by
  intro short
  obtain ⟨s, comment⟩ := Option.isSome_iff_exists.1 short
  rw [lineComment?_eq, Option.bind_eq_some_iff] at comment
  obtain ⟨t, opened, -⟩ := comment
  cases cs with
  | nil => cases opened
  | cons c cs =>
    have longer : opener? (c :: cs ++ x) = some (goOn x t) := by
      rw [opener?_steady (fun _ => hyphen) blank, opened]
      rfl
    have suffix : t.2 ++ x <:+ c :: cs ++ x :=
      ⟨t.1, by rw [← List.append_assoc, (opener?_cases opened).1]⟩
    obtain ⟨line, found⟩ := Option.isSome_iff_exists.1 (h.of_suffix suffix).isSome_lineRest?
    rw [lineComment?_eq, longer]
    simp [goOn, found]

/-- With a line feed after every carriage return, only hyphens at the very end may come to open a
comment. -/
theorem settled (h : ReturnsFed (cs ++ x)) (hyphen : x.head? ≠ some '-')
    (blank : ['-', '-'] <:+ cs → x.head?.all isBlank = true) : Settled x cs ts := by
  refine .inl fun b suffix => ?_
  obtain ⟨front, rfl⟩ := suffix
  refine (h.of_suffix ⟨front, by rw [List.append_assoc]⟩).keepsComment hyphen ?_
  rintro rfl
  exact blank ⟨front, rfl⟩

/-- Blanks at the end make no difference to hyphens. -/
theorem settled_trim (h : ReturnsFed cs) (after : List Char) (blank : ∀ d ∈ after, isBlank d = true)
    (suffix : trim cs ++ after <:+ cs) : Settled after (trim cs) ts := by
  have hyphen : after.head? ≠ some '-' := (stops_of_blank blank).head_ne (.inr (by decide))
  refine (h.of_suffix suffix).settled hyphen fun _ => ?_
  cases after with
  | nil => rfl
  | cons d after => exact blank d List.mem_cons_self

end ReturnsFed

/-- What is cut from the front of a text with blanks after it is cut from the text alone, or it
is a comment, ends among the blanks and takes all of the text. -/
theorem scan_trimmed {kind : Option Kind} {taken rest : List Char}
    (blank : ∀ d ∈ x, isBlank d = true) (last : EndsSolid (c :: cs)) (solid : isSpace c = false)
    (keeps : KeepsComment x (c :: cs))
    (found : scan keywords signed (c :: cs ++ x) = some ⟨kind, taken, rest⟩) :
    (∃ left, rest = left ++ x ∧ taken ++ left = c :: cs ∧
        scan keywords signed (c :: cs) = some ⟨kind, taken, left⟩) ∨
      kind = none ∧ (∀ d ∈ rest, isBlank d = true) ∧
        scan keywords signed (c :: cs) = some ⟨none, c :: cs, []⟩ := by
  have stops : Stops x := stops_of_blank blank
  have whole : taken ++ rest = c :: cs ++ x := (scan_divides found).1
  have inside {left : List Char} (same : rest = left ++ x) : taken ++ left = c :: cs ∧
      scan keywords signed (c :: cs) = some ⟨kind, taken, left⟩ := by
    subst same
    rw [← List.append_assoc] at whole
    refine ⟨List.append_cancel_right whole,
      scan_shorten stops solid keeps (fun _ isReturn => ?_) found⟩
    have notBlank := last '\r' isReturn
    cases notBlank
  rcases List.append_eq_append_iff.1 whole with ⟨left, -, same⟩ | ⟨y, rfl, rfl⟩
  · exact .inl ⟨left, same, inside same⟩
  · by_cases more : y = []
    · subst more
      exact .inl ⟨[], rfl, inside rfl⟩
    · rcases scan_over stops solid more found with ⟨body, e, same, mark⟩ | ⟨rfl, all⟩
      · have final : y.getLast? = some e := by
          have both := congrArg List.getLast? same
          rw [List.getLast?_append_of_ne_nil _ more, List.getLast?_concat] at both
          exact both
        have isBlank := blank e (List.mem_append_left rest (List.mem_of_getLast? final))
        have none : ∀ e ∈ ['\x60', '\x27', '"', '/'], Text.isBlank e = false := by decide
        simp [none e mark] at isBlank
      · exact .inr ⟨rfl, fun d hd => blank d (List.mem_append_right y hd), all⟩

namespace Lexes

/-- Blanks at the end may be left out. -/
theorem trimBack (h : Lexes keywords signed p (cs ++ x) ts) (blank : ∀ d ∈ x, isBlank d = true)
    (last : EndsSolid cs) (settled : Settled x cs ts) : Lexes keywords signed p cs ts := by
  have stops : Stops x := stops_of_blank blank
  generalize whole : cs ++ x = text at h
  have all := h
  induction h generalizing cs with
  | done =>
    obtain ⟨rfl, -⟩ := List.append_eq_nil_iff.1 whole
    exact .done
  | space isSpace later ih =>
    cases cs with
    | nil =>
      obtain rfl := all.eq_nil_of_blank (by rwa [← whole])
      exact .done
    | cons d cs =>
      obtain ⟨rfl, rfl⟩ := List.cons.inj whole
      exact .space isSpace (ih (last.of_suffix (List.suffix_cons d cs))
        (settled.of_suffix (List.suffix_cons d cs)) rfl later)
  | comment solid found later ih =>
    cases cs with
    | nil =>
      obtain rfl := all.eq_nil_of_blank (by rwa [← whole])
      exact .done
    | cons d cs =>
      obtain ⟨rfl, rfl⟩ := List.cons.inj whole
      have keeps : KeepsComment x (d :: cs) :=
        settled.keeps stops (by rwa [List.append_nil]) (by simp)
      rcases scan_trimmed blank last solid keeps found with
        ⟨left, rfl, parts, short⟩ | ⟨-, blanks, short⟩
      · have suffix : left <:+ d :: cs := ⟨_, parts⟩
        exact .comment solid short (ih (last.of_suffix suffix) (settled.of_suffix suffix) rfl later)
      -- The comment reached into the blanks. Now it ends with the text.
      · obtain rfl := later.eq_nil_of_blank blanks
        exact .comment solid short .done
  | token solid found later ih =>
    cases cs with
    | nil =>
      have none := all.eq_nil_of_blank (by rwa [← whole])
      cases none
    | cons d cs =>
      obtain ⟨rfl, rfl⟩ := List.cons.inj whole
      have keeps : KeepsComment x (d :: cs) :=
        settled.keeps stops (by rwa [List.append_nil]) (by simp)
      rcases scan_trimmed blank last solid keeps found with
        ⟨left, rfl, parts, short⟩ | ⟨isComment, -⟩
      · have suffix : left <:+ d :: cs := ⟨_, parts⟩
        exact .token solid short (ih (last.of_suffix suffix) (settled.tail suffix) rfl later)
      · cases isComment

/-- A text has its tokens without the blanks around it. -/
theorem trimmed (h : Lexes keywords signed p cs ts)
    (settled : ∀ after, (∀ d ∈ after, isBlank d = true) → trim cs ++ after <:+ cs →
      Settled after (trim cs) ts) : ∃ q, Lexes keywords signed q (trim cs) ts := by
  obtain ⟨before, after, whole, blankBefore, blankAfter⟩ := trim_append cs
  rw [List.all_eq_true] at blankBefore blankAfter
  have front := h
  rw [← whole] at front
  exact ⟨_, (front.trimFront blankBefore).trimBack blankAfter (endsSolid_trim cs)
    (settled after blankAfter ⟨before, whole⟩)⟩

end Lexes

theorem stops_semicolon (cs : List Char) : Stops (';' :: cs) := by
  intro d hd
  obtain rfl := Option.some.inj hd
  decide

theorem scan_semicolon (cs : List Char) :
    scan keywords signed (';' :: cs) = some ⟨some .operator, [';'], cs⟩ := by
  have operator : operator? (';' :: cs) = some ([';'], cs) := by
    cases cs <;> simp [operator?, doubleOperators, singleOperators]
  exact scan_operator (by decide) (fun h => absurd h (by decide)) (fun h => absurd h (by decide))
    (number?_eq_none (by decide) (fun h => absurd h (by decide)) fun h => absurd h (by decide))
    operator

theorem Token.eq_of_isSemicolon {t : Token} (h : t.isSemicolon = true) :
    t.kind = .operator ∧ t.text = ";" := by
  simpa [isSemicolon] using h

/-- The tokens of a text that goes on with `x`, where none of them ends within `x`. -/
inductive LexesBefore (keywords : Keywords) (x : List Char) :
    Bool → Position → List Char → List Token → Prop
  | done {signed : Bool} {p : Position} : LexesBefore keywords x signed p [] []
  | space {signed : Bool} {p : Position} {c : Char} {cs : List Char} {ts : List Token}
    (blank : isSpace c = true) (later : LexesBefore keywords x signed (p.next c) cs ts) :
    LexesBefore keywords x signed p (c :: cs) ts
  | comment {signed : Bool} {p : Position} {c : Char} {cs taken rest : List Char}
    {ts : List Token} (solid : isSpace c = false) (parts : taken ++ rest = c :: cs)
    (found : scan keywords signed (c :: cs ++ x) = some ⟨none, taken, rest ++ x⟩)
    (later : LexesBefore keywords x signed (p.after taken) rest ts) :
    LexesBefore keywords x signed p (c :: cs) ts
  | token {signed : Bool} {p : Position} {c : Char} {cs taken rest : List Char} {kind : Kind}
    {ts : List Token} (solid : isSpace c = false) (parts : taken ++ rest = c :: cs)
    (found : scan keywords signed (c :: cs ++ x) = some ⟨some kind, taken, rest ++ x⟩)
    (later : LexesBefore keywords x (!Token.endsOperand keywords ⟨kind, String.ofList taken, p⟩)
      (p.after taken) rest ts) :
    LexesBefore keywords x signed p (c :: cs) (⟨kind, String.ofList taken, p⟩ :: ts)

/-- What a scanner takes off the front of a text leaves a suffix of it in front of `x`. -/
theorem exists_cons_of_scan {kind : Option Kind} {taken rest : List Char}
    (found : scan keywords signed (c :: cs) = some ⟨kind, taken, rest ++ x⟩) :
    ∃ ds, cs = ds ++ x ∧ taken ++ rest = c :: ds := by
  obtain ⟨whole, nonempty⟩ := scan_divides found
  obtain ⟨d, ds, rfl⟩ := List.exists_cons_of_ne_nil nonempty
  simp only [List.cons_append, ← List.append_assoc, List.cons.injEq] at whole
  obtain ⟨rfl, rfl⟩ := whole
  exact ⟨ds ++ rest, rfl, rfl⟩

/-- A text has the tokens before a semicolon up to the semicolon, and those after it behind. -/
theorem Lexes.divide {g later : List Token} {semi : Token} (isSemi : semi.isSemicolon = true)
    (h : Lexes keywords signed p cs (g ++ semi :: later)) :
    ∃ body rest, cs = body ++ ';' :: rest ∧ semi = ⟨.operator, ";", p.after body⟩ ∧
      Lexes keywords true (p.after (body ++ [';'])) rest later ∧
      LexesBefore keywords (';' :: rest) signed p body g := by
  generalize whole : g ++ semi :: later = ts at h
  induction h generalizing g with
  | done => cases (List.append_eq_nil_iff.1 whole).2
  | @space _ _ c _ _ blank _ ih =>
    obtain ⟨body, rest, rfl, same, after, before⟩ := ih whole
    exact ⟨c :: body, rest, rfl, same, after, .space blank before⟩
  | @comment _ _ c _ _ _ _ solid found _ ih =>
    obtain ⟨body, rest, rfl, same, after, before⟩ := ih whole
    obtain ⟨ds, rfl, parts⟩ := exists_cons_of_scan found
    refine ⟨c :: ds, rest, rfl, ?_, ?_, .comment solid parts found before⟩
    · rw [same, ← parts, Position.after_append]
    · rwa [← parts, List.append_assoc, Position.after_append]
  | @token _ _ c _ taken rest _ _ solid found later ih =>
    rcases List.append_eq_cons_iff.1 whole with ⟨rfl, same⟩ | ⟨g, rfl, same⟩
    · obtain ⟨rfl, rfl⟩ := List.cons.inj same
      obtain ⟨rfl, text⟩ := Token.eq_of_isSemicolon isSemi
      obtain rfl : taken = [';'] := by simpa using congrArg String.toList text
      exact ⟨[], rest, ((scan_divides found).1).symm, rfl, later, .done⟩
    · obtain ⟨body, rest, rfl, same, after, before⟩ := ih same.symm
      obtain ⟨ds, rfl, parts⟩ := exists_cons_of_scan found
      refine ⟨c :: ds, rest, rfl, ?_, ?_, .token solid parts found before⟩
      · rw [same, ← parts, Position.after_append]
      · rwa [← parts, List.append_assoc, Position.after_append]

namespace LexesBefore

/-- The semicolon comes after the tokens before it. -/
theorem followed {rest : List Char} {us : List Token}
    (h : LexesBefore keywords (';' :: rest) signed p cs ts)
    (later : Lexes keywords true (p.after (cs ++ [';'])) rest us) :
    Lexes keywords signed p (cs ++ ';' :: rest) (ts ++ ⟨.operator, ";", p.after cs⟩ :: us) := by
  induction h with
  | done => exact .token (by decide) (scan_semicolon rest) later
  | space blank _ ih => exact .space blank (ih later)
  | comment solid parts found _ ih =>
    rw [← parts, List.append_assoc, Position.after_append] at later
    rw [← parts, Position.after_append, parts]
    exact .comment solid found (ih later)
  | token solid parts found _ ih =>
    rw [← parts, List.append_assoc, Position.after_append] at later
    rw [← parts, Position.after_append, parts]
    exact .token solid found (ih later)

theorem keepsComment {rest : List Char} {us : List Token}
    (h : LexesBefore keywords (';' :: rest) signed p cs ts)
    (later : Lexes keywords true (p.after (cs ++ [';'])) rest us)
    (settled : Settled (';' :: rest) cs ts) : KeepsComment (';' :: rest) cs := by
  refine settled.keeps (stops_semicolon rest) (h.followed later) fun t first => ?_
  obtain rfl := Option.some.inj first
  rfl

/-- The text up to a semicolon has its tokens by itself too. -/
theorem alone {rest : List Char} {us : List Token}
    (h : LexesBefore keywords (';' :: rest) signed p cs ts)
    (later : Lexes keywords true (p.after (cs ++ [';'])) rest us)
    (settled : Settled (';' :: rest) cs ts) : Lexes keywords signed p cs ts := by
  have all := h
  induction h with
  | done => exact .done
  | @space _ _ c cs _ blank before ih =>
    exact .space blank (ih later (settled.of_suffix (List.suffix_cons c cs)) before)
  | comment solid parts found before ih =>
    have short := scan_shorten (stops_semicolon rest) solid (all.keepsComment later settled)
      (by simp) found
    rw [← parts, List.append_assoc, Position.after_append] at later
    exact .comment solid short (ih later (settled.of_suffix ⟨_, parts⟩) before)
  | token solid parts found before ih =>
    have short := scan_shorten (stops_semicolon rest) solid (all.keepsComment later settled)
      (by simp) found
    rw [← parts, List.append_assoc, Position.after_append] at later
    exact .token solid short (ih later (settled.tail ⟨_, parts⟩) before)

end LexesBefore

end TableDdl
