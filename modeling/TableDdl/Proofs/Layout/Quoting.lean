import TableDdl.Proofs.Layout.Tokens
import TableDdl.Proofs.RoundTrip.Atoms

/-!
# Quoting

There are no escapes, so the first quote of its kind ends a name or a string literal. Main
statement: what is written of a name is one token with that name just where the name is not empty
and holds no backquote, and what is written of a string just where it does not hold both quotes.
Any other name or string is written as something else: the token at its front is another name or
string, or there is none.
-/
namespace TableDdl

open Scan

variable {keywords : Keywords} {signed : Bool} {name content value : String} {cs : List Char}
  {kind : Kind} {taken rest : List Char} {terminal : Terminal}

theorem nameOk_of_isPlainWord (plain : Text.isPlainWord name = true) : NameOk name := by
  obtain ⟨c, cs, whole, start, parts⟩ := Text.isPlainWord_iff.1 plain
  exact nameOk_of_isWord ⟨c, cs, whole, isWordStart_of_isPlainStart start,
    List.all_eq_true.2 fun d hd => isWordPart_of_isPlainPart (List.all_eq_true.1 parts d hd)⟩

theorem quoteName_of_not_nameOk (bad : ¬ NameOk name) (x : List Char) :
    Layout.quoteName name ++ x = '\x60' :: (name.toList ++ '\x60' :: x) := by
  have other : Text.isPlainWord name = false :=
    Bool.eq_false_iff.2 fun plain => bad (nameOk_of_isPlainWord plain)
  simp [Layout.quoteName, other]

/-- A name without a written form is cut short, or is no token at all. -/
theorem scan_quoteName (bad : ¬ NameOk name) (x : List Char) :
    scan keywords signed (Layout.quoteName name ++ x) = none ∨
      ∃ front rest, front ≠ name.toList ∧ scan keywords signed (Layout.quoteName name ++ x) =
        some ⟨some .identifier, '\x60' :: (front ++ ['\x60']), rest⟩ := by
  rw [quoteName_of_not_nameOk bad]
  by_cases empty : name.toList = []
  · rw [empty]
    exact .inl scan_emptyName
  · have held : '\x60' ∈ name.toList := by
      by_contra free
      exact bad ⟨empty, free⟩
    obtain ⟨front, more, whole, clean⟩ := List.eq_append_cons_of_mem held
    rw [whole, List.append_assoc, List.cons_append]
    cases front with
    | nil => exact .inl scan_emptyName
    | cons c front =>
      exact .inr ⟨c :: front, _, by simp, scan_quotedName (List.cons_ne_nil c front) clean⟩

/-- A string with both quotes is cut short at its first double quote. -/
theorem scan_quoteString (single : '\x27' ∈ content.toList) (double : '"' ∈ content.toList)
    (x : List Char) :
    ∃ front rest, front ≠ content.toList ∧ scan keywords signed (Layout.quoteString content ++ x) =
      some ⟨some .string, '"' :: (front ++ ['"']), rest⟩ := by
  obtain ⟨front, more, whole, clean⟩ := List.eq_append_cons_of_mem double
  have text : Layout.quoteString content ++ x = '"' :: (front ++ '"' :: (more ++ '"' :: x)) := by
    rw [Layout.quoteString, if_pos (by simpa using single), whole]
    simp
  rw [text]
  exact ⟨front, _, by simp [whole], scan_string (.inr rfl) clean⟩

/-- The text is cut into one token, and the terminal takes the value from that. -/
def Terminal.Rereads (terminal : Terminal) (value : String) (cs : List Char) : Prop :=
  ∃ t, tokenize .mysql (String.ofList cs) = .ok [t] ∧ terminal.accept .mysql t = some value

namespace Terminal.Rereads

theorem of_scan (found : scan .mysql true cs = some ⟨some kind, cs, []⟩)
    (accepted : terminal.accept .mysql ⟨kind, String.ofList cs, .start⟩ = some value) :
    terminal.Rereads value cs := by
  refine ⟨_, ?_, accepted⟩
  rw [tokenize, String.toList_ofList, tokensFrom_of_scan_eq_some found]
  simp only [tokensFrom_nil, Except.map]

/-- The one token is the token at the front. -/
theorem accept (h : terminal.Rereads value cs)
    (found : scan .mysql true cs = some ⟨some kind, taken, rest⟩) :
    terminal.accept .mysql ⟨kind, String.ofList taken, .start⟩ = some value := by
  obtain ⟨t, cut, accepted⟩ := h
  rw [tokenize, String.toList_ofList, tokensFrom_of_scan_eq_some found] at cut
  simp only at cut
  cases more : tokensFrom .mysql _ _ rest with
  | error e =>
    rw [more] at cut
    cases cut
  | ok later =>
    rw [more] at cut
    obtain ⟨rfl, -⟩ := List.cons.inj (Except.ok.inj cut)
    exact accepted

theorem scan_ne_none (h : terminal.Rereads value cs) : scan .mysql true cs ≠ none := by
  intro none
  obtain ⟨t, cut, -⟩ := h
  rw [tokenize, String.toList_ofList] at cut
  by_cases empty : cs = []
  · rw [empty, tokensFrom_nil] at cut
    cases cut
  · rw [tokensFrom_of_scan_eq_none none empty] at cut
    cases cut

/-- A lexeme that has a written form is the one token of its text. -/
theorem of_writable {l : Lexeme} (writable : l.Writable)
    (accepted : terminal.accept .mysql l.token = some value) : terminal.Rereads value l.text := by
  have found : scan .mysql true (l.text ++ []) = some ⟨some l.kind, l.text, []⟩ :=
    l.scan_text writable (by simp) (by simp)
  rw [List.append_nil] at found
  exact of_scan found accepted

end Terminal.Rereads

theorem rereads_quoteName_iff :
    Terminal.identifier.Rereads name (Layout.quoteName name) ↔ NameOk name := by
  constructor
  · intro rereads
    by_contra bad
    have cut := @scan_quoteName .mysql true name bad []
    rw [List.append_nil] at cut
    rcases cut with none | ⟨front, rest, other, found⟩
    · exact rereads.scan_ne_none none
    · have same := rereads.accept found
      obtain rfl : String.ofList front = name := by
        simpa [Terminal.accept, Terminal.unquote, Terminal.inner] using same
      simp at other
  · intro ok
    exact .of_writable (l := .name name) ok Terminal.accept_identifier_name

theorem rereads_quoteString_iff : Terminal.string.Rereads content (Layout.quoteString content) ↔
    ¬ ('\x27' ∈ content.toList ∧ '"' ∈ content.toList) := by
  constructor
  · rintro rereads ⟨single, double⟩
    obtain ⟨front, rest, other, found⟩ := @scan_quoteString .mysql true content single double []
    rw [List.append_nil] at found
    have same := rereads.accept found
    obtain rfl : String.ofList front = content := by
      simpa [Terminal.accept, Terminal.inner] using same
    simp at other
  · intro ok
    exact .of_writable (l := .string content) ok Terminal.accept_string_string

/-- Quoting is exact: the names and strings that have a written form are the ones that are read
back from it as a single token. -/
theorem rereads_quoted_iff :
    (∀ name, Terminal.identifier.Rereads name (Layout.quoteName name) ↔
      name ≠ "" ∧ '\x60' ∉ name.toList) ∧
    ∀ content, Terminal.string.Rereads content (Layout.quoteString content) ↔
      ¬ ('\x27' ∈ content.toList ∧ '"' ∈ content.toList) := by
  refine ⟨fun name => ?_, fun content => rereads_quoteString_iff⟩
  rw [rereads_quoteName_iff, NameOk, ne_eq, String.toList_eq_nil_iff]

end TableDdl
