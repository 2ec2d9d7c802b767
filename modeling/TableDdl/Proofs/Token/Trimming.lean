import TableDdl.Proofs.Token.Comments
import TableDdl.Proofs.Token.Lexing

/-!
# Trimmed texts

The blanks at both ends of a text belong to no token. Main statement: without them a text has the
same tokens as before, unless two hyphens that were operators come to open a comment because the
text ends after them.
-/
namespace TableDdl

open Scan Text

variable {keywords : Keywords} {signed : Bool} {p : Position} {c : Char} {cs x : List Char}
  {ts : List Token}

namespace Text

/-- The blanks by their code points. -/
def blankCodes : List Nat :=
  [0x0009, 0x000A, 0x000B, 0x000C, 0x000D, 0x0020, 0x0085, 0x00A0, 0x1680, 0x2000, 0x2001, 0x2002,
    0x2003, 0x2004, 0x2005, 0x2006, 0x2007, 0x2008, 0x2009, 0x200A, 0x2028, 0x2029, 0x202F, 0x205F,
    0x3000]

theorem toNat_mem_of_isBlank (blank : isBlank c = true) : c.toNat ∈ blankCodes := by
  obtain ⟨b, mem, low, high⟩ := Ranges.contains_iff.1 blank
  simp only [blankRanges, List.mem_cons, List.not_mem_nil, or_false] at mem
  simp only [blankCodes, List.mem_cons, List.not_mem_nil, or_false]
  rcases mem with rfl | rfl | rfl | rfl | rfl | rfl | rfl | rfl | rfl | rfl <;>
    simp only at low high <;> omega

/-- What holds of the blanks one by one. -/
theorem of_isBlank {P : Char → Prop} (all : ∀ n ∈ blankCodes, P (Char.ofNat n))
    (blank : isBlank c = true) : P c := by
  have h := all _ (toNat_mem_of_isBlank blank)
  rwa [Char.ofNat_toNat] at h

end Text

theorem isBlank_of_isSpace (space : isSpace c = true) : isBlank c = true := by
  have mem : c ∈ [' ', '\t', '\r', '\n'] := by simpa [isSpace, or_assoc] using space
  clear space
  revert mem c
  decide

/-- The characters that are not part of words and that tokens and comments begin with or look
ahead for. -/
def marks : List Char := '\x60' :: '\x27' :: '"' :: '#' :: operatorStarts

/-- A blank is part of a comment or a literal only. -/
theorem apart_of_isBlank (blank : isBlank c = true) : isWordPart c = false ∧ c ∉ marks :=
  of_isBlank (P := fun c => isWordPart c = false ∧ c ∉ marks) (by decide +kernel) blank

theorem isWordStart_eq_false (h : isWordPart c = false) : isWordStart c = false := by
  simp only [isWordPart, Bool.or_eq_false_iff] at h
  simp [isWordStart, h]

theorem isDigit_eq_false_of_isBlank (blank : isBlank c = true) : c.isDigit = false := by
  have word := (apart_of_isBlank blank).1
  cases digit : c.isDigit with
  | false => rfl
  | true => rwa [isWordPart_eq_true_of_isDigit digit] at word

theorem stops_cons_of_blank (blank : isBlank c = true) (cs : List Char) : Stops (c :: cs) := by
  intro d hd
  obtain rfl := Option.some.inj hd
  obtain ⟨word, mark⟩ := apart_of_isBlank blank
  have looked : ∀ d ∈ ['.', '+', '-', '*', '>', '=', '|'], d ∈ marks := by decide
  exact ⟨word, fun h => mark (looked c h)⟩

theorem stops_of_blank (blank : ∀ d ∈ x, isBlank d = true) : Stops x := by
  cases x with
  | nil => exact stops_nil
  | cons d x => exact stops_cons_of_blank (blank d List.mem_cons_self) x

/-- Other blanks than spaces and ends of lines stand in comments and literals only. -/
theorem scan_of_blank (blank : isBlank c = true) (solid : isSpace c = false) :
    scan keywords signed (c :: cs) = none := by
  obtain ⟨word, mark⟩ := apart_of_isBlank blank
  have ne {d : Char} (h : d ∈ marks) : c ≠ d := fun same => mark (same ▸ h)
  have operator : c ∉ operatorStarts := fun h => mark (by simp [marks, h])
  have digit : c.isDigit = false := isDigit_eq_false_of_isBlank blank
  have hyphen : c ≠ '-' := ne (by decide)
  have plus : c ≠ '+' := ne (by decide)
  have notEnclosed : ¬ Encloses c cs := by
    rintro (quote | ⟨slash, -⟩)
    · have known : ∀ d ∈ ['\x60', '\x27', '"'], d ∈ marks := by decide
      exact mark (known c quote)
    · exact ne (by decide) slash
  rw [scan_of_not_encloses notEnclosed,
    lineComment?_eq_none (ne (by decide)) fun h => absurd h hyphen,
    word?_eq_none (isWordStart_eq_false word), spaces?_eq_none solid, operator?_eq_none operator,
    number?_eq_none digit (fun h => absurd h (ne (by decide))) fun h =>
      absurd h (by simp [plus, hyphen])]
  rfl

namespace Lexes

/-- Blanks at the front may be left out. -/
theorem trimFront (blank : ∀ d ∈ x, isBlank d = true) (h : Lexes keywords signed p (x ++ cs) ts) :
    Lexes keywords signed (p.after x) cs ts := by
  induction x generalizing p with
  | nil => exact h
  | cons d x ih =>
    obtain ⟨first, others⟩ := List.forall_mem_cons.1 blank
    cases h with
    | space _ later => exact ih others later
    | comment solid found => simp [scan_of_blank first solid] at found
    | token solid found => simp [scan_of_blank first solid] at found

/-- A text of blanks has no tokens. -/
theorem eq_nil_of_blank (blank : ∀ d ∈ cs, isBlank d = true) (h : Lexes keywords signed p cs ts) :
    ts = [] := by
  have rest : Lexes keywords signed (p.after cs) [] ts :=
    trimFront blank (by rwa [List.append_nil])
  cases rest
  rfl

/-- The token that is scanned at the front comes first. -/
theorem of_token {kind : Kind} {taken rest : List Char} (h : Lexes keywords signed p cs ts)
    (found : scan keywords signed cs = some ⟨some kind, taken, rest⟩) :
    ∃ us, ts = ⟨kind, String.ofList taken, p⟩ :: us ∧
      Lexes keywords (!Token.endsOperand keywords ⟨kind, String.ofList taken, p⟩) (p.after taken)
        rest us := by
  have tokens := h.tokensFrom_eq
  rw [tokensFrom_of_scan_eq_some found] at tokens
  cases later : tokensFrom keywords
      (!Token.endsOperand keywords ⟨kind, String.ofList taken, p⟩) (p.after taken) rest with
  | error e => simp [later, Except.map] at tokens
  | ok us =>
    obtain rfl : _ :: us = ts := by simpa [later, Except.map] using tokens
    exact ⟨us, rfl, lexes_of_tokensFrom later⟩

end Lexes

end TableDdl
