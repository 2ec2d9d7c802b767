import TableDdl.Proofs.RoundTrip.Parsing
import TableDdl.Proofs.Token.Appended
import TableDdl.Proofs.Token.Trimming

/-!
# Comments to the end of the line leave no tokens

A line may be a comment, or end in one, without any effect on the tokens around it. The one
exception is a carriage return in the middle of the line: then the comment is none, and the text
after its mark is read as tokens.
-/
namespace TableDdl

open Scan

variable {keywords : Keywords} {signed : Bool} {p : Position} {c cs b x : List Char}
  {ts : List Token}

namespace Scan

/-- A line has no carriage return in it, or a first one. -/
theorem unbroken_or_return (line : '\n' ∉ c) :
    Unbroken c ∨ ∃ front more, c = front ++ '\r' :: more ∧ Unbroken front := by
  rcases unbroken_or c with all | ⟨front, e, more, rfl, all, ends⟩
  · exact .inl all
  · have either : e = '\r' ∨ e = '\n' := by simpa [isLineEnd] using ends
    obtain rfl := either.resolve_right fun feed => line (by simp [feed])
    exact .inr ⟨front, more, rfl, all⟩

theorem lineRest?_return {front more : List Char} (line : '\n' ∉ front ++ '\r' :: more)
    (all : Unbroken front) : lineRest? (front ++ '\r' :: more ++ '\n' :: b) =
      if more = [] then some (front, '\r' :: '\n' :: b) else none := by
  rw [List.append_assoc, List.cons_append, lineRest?_broken all (by decide)]
  cases more with
  | nil => simp
  | cons d more =>
    have other : d ≠ '\n' := by
      rintro rfl
      exact line (by simp)
    simp [other]

/-- A line may end in a carriage return. -/
theorem exists_lineRest? (line : '\n' ∉ c) (whole : '\r' ∉ c.dropLast) :
    ∃ front tail, lineRest? (c ++ '\n' :: b) = some (front, tail ++ '\n' :: b) ∧
      ∀ d ∈ tail, isSpace d = true := by
  rcases unbroken_or_return line with all | ⟨front, more, rfl, all⟩
  · exact ⟨c, [], by rw [lineRest?_broken all (by decide)]; simp, nofun⟩
  · refine ⟨front, ['\r'], ?_, by decide⟩
    rw [lineRest?_return line all, if_pos]
    · rfl
    · refine Classical.byContradiction fun further => whole ?_
      rw [List.dropLast_append_of_ne_nil (List.cons_ne_nil _ _),
        List.dropLast_cons_of_ne_nil further]
      simp

/-- Elsewhere in a line a carriage return leaves no rest of the line. -/
theorem lineRest?_eq_none (line : '\n' ∉ c) (broken : '\r' ∈ c.dropLast) :
    lineRest? (c ++ '\n' :: b) = none := by
  have here : '\r' ∈ c := List.dropLast_subset c broken
  rcases unbroken_or_return line with all | ⟨front, more, rfl, all⟩
  · cases all '\r' here
  · rw [lineRest?_return line all, if_neg]
    rintro rfl
    rw [List.dropLast_concat] at broken
    cases all '\r' broken

/-- The marks of comments to the end of the line. -/
def lineMarks : List String := ["#", "-- "]

/-- A mark opens a comment, with what it has after its hyphens. -/
theorem opener?_mark {mark : String} (known : mark ∈ lineMarks) :
    ∃ opening blank, (∀ cs, opener? (mark.toList ++ cs) = some (opening, blank ++ cs)) ∧
      '\n' ∉ blank ∧ ∀ c : List Char, '\r' ∈ (blank ++ c).dropLast ↔ '\r' ∈ c.dropLast := by
  simp only [lineMarks, List.mem_cons, List.not_mem_nil, or_false] at known
  rcases known with rfl | rfl
  · exact ⟨['#'], [], fun _ => rfl, by simp, fun _ => Iff.rfl⟩
  · refine ⟨['-', '-'], [' '], fun _ => rfl, by simp, fun c => ?_⟩
    cases c <;> simp

end Scan

theorem tokensFrom_spaces (blank : ∀ d ∈ x, isSpace d = true) :
    tokensFrom keywords signed p (x ++ cs) = tokensFrom keywords signed (p.after x) cs := by
  induction x generalizing p with
  | nil => rfl
  | cons d x ih =>
    obtain ⟨first, others⟩ := List.forall_mem_cons.1 blank
    rw [List.cons_append, tokensFrom_space first, ih others]
    rfl

section Lines

variable {mark : String} (known : mark ∈ lineMarks) (line : '\n' ∉ c)
include known line

theorem lineComment?_mark : ∃ opening blank, '\n' ∉ blank ++ c ∧
    ('\r' ∈ (blank ++ c).dropLast ↔ '\r' ∈ c.dropLast) ∧
    lineComment? (mark.toList ++ (c ++ '\n' :: b)) =
      (lineRest? (blank ++ c ++ '\n' :: b)).map fun t => (opening ++ t.1, t.2) := by
  obtain ⟨opening, blank, opens, noFeed, same⟩ := opener?_mark known
  refine ⟨opening, blank, by simp [noFeed, line], same c, ?_⟩
  rw [lineComment?_eq, opens, List.append_assoc]
  rfl

/-- A comment on a line of its own, and the end of the line, are no tokens. -/
theorem unplacedFrom_mark (whole : '\r' ∉ c.dropLast) :
    unplacedFrom keywords signed p (mark.toList ++ (c ++ '\n' :: b)) =
      unplacedFrom keywords signed p b := by
  obtain ⟨opening, blank, line', same, comment⟩ := lineComment?_mark (b := b) known line
  obtain ⟨front, tail, rest, spaces⟩ := exists_lineRest? (b := b) line' fun h => whole (same.1 h)
  rw [rest, Option.map_some] at comment
  have skip (q : Position) : tokensFrom keywords signed q (tail ++ '\n' :: b) =
      tokensFrom keywords signed ((q.after tail).next '\n') b := by
    rw [tokensFrom_spaces spaces, tokensFrom_space (by decide)]
  rw [unplacedFrom, tokensFrom_of_scan_eq_some (scan_of_lineComment? comment)]
  simp only [cut, skip]
  exact unplacedFrom_eq keywords signed _ p b

/-- A line that is no comment makes for a token, or for an error. -/
theorem unplacedFrom_mark_ne (broken : '\r' ∈ c.dropLast) :
    unplacedFrom keywords signed p (mark.toList ++ (c ++ '\n' :: b)) ≠ some [] := by
  obtain ⟨opening, blank, line', same, comment⟩ := lineComment?_mark (b := b) known line
  rw [lineRest?_eq_none line' (same.2 broken), Option.map_none] at comment
  intro nothing
  obtain ⟨ts, lexes, empty⟩ := unplacedFrom_eq_some_iff.1 nothing
  obtain rfl := List.map_eq_nil_iff.1 empty
  simp only [lineMarks, List.mem_cons, List.not_mem_nil, or_false] at known
  rcases known with rfl | rfl
  · have scanned : scan keywords signed ('#' :: (c ++ '\n' :: b)) = none := scan_hash comment
    have tokens : tokensFrom keywords signed p ('#' :: (c ++ '\n' :: b)) = .ok [] :=
      lexes.tokensFrom_eq
    rw [tokensFrom_of_scan_eq_none scanned (List.cons_ne_nil _ _)] at tokens
    cases tokens
  · have scanned : scan keywords signed ('-' :: '-' :: ' ' :: (c ++ '\n' :: b)) =
        some ⟨some .operator, ['-'], '-' :: ' ' :: (c ++ '\n' :: b)⟩ := by
      refine scan_hyphen comment fun d hd => ?_
      obtain rfl := Option.some.inj hd
      decide
    obtain ⟨us, nonempty, -⟩ := lexes.of_token scanned
    cases nonempty

end Lines

/-- Where a text goes on after a line feed or has nothing before it, a comment to the end of the
line has no effect on its tokens, whatever comes after, just where no carriage return stands
before the last character of the comment. -/
theorem unplaced_comment_iff {a mark c : String} (closed : a = "" ∨ a.toList.getLast? = some '\n')
    (cut : tokenize keywords a = .ok ts) (known : mark ∈ lineMarks) (line : '\n' ∉ c.toList) :
    (∀ b, unplaced keywords (a ++ (mark ++ c ++ "\n" ++ b)) = unplaced keywords (a ++ b)) ↔
      '\r' ∉ c.toList.dropLast := by
  have steady (x : List Char) : SteadyWithin x a.toList := by
    rcases closed with rfl | ends
    · rintro c b suffix
      cases List.suffix_nil.1 suffix
    · exact steadyWithin_of_feed ends
  have lexes := lexes_of_tokenize cut
  have text (b : String) : (mark ++ c ++ "\n" ++ b).toList =
      mark.toList ++ (c.toList ++ '\n' :: b.toList) := by simp
  have both (b : String) : unplaced keywords (a ++ b) =
      (unplacedFrom keywords (signedAfter keywords true ts) .start b.toList).map
        (ts.map Token.anywhere ++ ·) := by
    rw [unplaced, String.toList_append, lexes.unplacedFrom_append (steady _)]
  constructor
  · intro all broken
    have same := all ""
    have empty : unplacedFrom keywords (signedAfter keywords true ts) .start "".toList = some [] := by
      simp [unplacedFrom, Except.toOption]
    rw [both, both, text, empty, Option.map_some, List.append_nil, Option.map_eq_some_iff] at same
    obtain ⟨us, comment, none⟩ := same
    obtain rfl := List.append_right_eq_self.1 none
    exact unplacedFrom_mark_ne known line broken comment
  · intro whole b
    rw [both, both, text, unplacedFrom_mark known line whole]

/-- The comment has an open quote, the start of another comment and a semicolon in it, and the
line ends in a carriage return and a line feed. -/
theorem unplaced_comment_quotes :
    unplaced .mysql ("a\r\n" ++ ("-- " ++ "it's /* \x60 ;\r" ++ "\n" ++ "-1")) =
      unplaced .mysql ("a\r\n" ++ "-1") := by
  have cut : tokenize .mysql "a\r\n" = .ok [⟨.identifier, "a", .start⟩] :=
    Parser.eq_ok_of_toOption (by decide +kernel)
  exact (unplaced_comment_iff (.inr (by decide)) cut (by decide) (by decide)).2 (by decide) "-1"

/-- A carriage return in the line makes its mark an error, or the line itself tokens. -/
theorem unplaced_comment_return :
    unplaced .mysql ("" ++ ("#" ++ "a\rb" ++ "\n" ++ "")) ≠ unplaced .mysql ("" ++ "") ∧
      unplaced .mysql ("" ++ ("-- " ++ "a\rb" ++ "\n" ++ "")) ≠ unplaced .mysql ("" ++ "") := by
  decide +kernel

end TableDdl
