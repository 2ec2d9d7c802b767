import TableDdl.Proofs.Script.Pieces
import TableDdl.Proofs.Token.Appended

/-!
# Joined statements

Texts of one statement each, joined by semicolons on lines of their own, are a script with these
statements. A comment that runs to the end of a text ends there in the script too.
-/
namespace TableDdl

open Scan Text

variable {keywords : Keywords} {signed : Bool} {p : Position} {cs x lead before text : List Char}
  {ts : List Token}

theorem Lexes.spaces (blank : ∀ d ∈ x, isSpace d = true)
    (h : Lexes keywords signed (p.after x) cs ts) : Lexes keywords signed p (x ++ cs) ts := by
  induction x generalizing p with
  | nil => exact h
  | cons d x ih =>
    obtain ⟨first, others⟩ := List.forall_mem_cons.1 blank
    exact .space first (ih others h)

/-- Tokens, a semicolon on the next line, and the tokens after it. -/
theorem Lexes.semicolon {rest : List Char} {g us : List Token}
    (h : Lexes keywords signed p cs g) (free : '\r' ∉ cs)
    (later : Lexes keywords true (p.after (cs ++ ['\n'] ++ [';'])) rest us) :
    ∃ semi : Token, semi.isSemicolon = true ∧ semi.position = p.after (cs ++ ['\n']) ∧
      Lexes keywords signed p (cs ++ ['\n'] ++ ';' :: rest) (g ++ semi :: us) := by
  refine ⟨⟨.operator, String.ofList [';'], p.after (cs ++ ['\n'])⟩, rfl, rfl, ?_⟩
  rw [List.append_assoc]
  refine h.append (steadyWithin_feed free) (.space (by decide) ?_)
  simp only [Position.after_append] at later ⊢
  exact .token (by decide) (scan_semicolon rest) later

namespace Script

/-- The text has tokens, none of which is a semicolon, and no carriage returns. -/
structure IsStatementText (text : String) : Prop where
  free : '\r' ∉ text.toList
  tokens : ∃ ts, tokenize .mysql text = .ok ts ∧ ts ≠ [] ∧ Undivided ts

/-- What stands between joined statements. -/
def separator : String := "\n;\n"

def joinedChars (texts : List String) : List Char :=
  separator.toList.intercalate (texts.map String.toList)

/-- A text by itself has its tokens after blanks too, whatever follows on the next line. -/
theorem IsStatementText.lexes {text : String} (h : IsStatementText text)
    (blank : ∀ d ∈ lead, isSpace d = true) (p : Position) :
    ∃ g, g ≠ [] ∧ Undivided g ∧ Lexes .mysql true p (lead ++ text.toList) g := by
  obtain ⟨ts, cut, nonempty, free⟩ := h.tokens
  obtain ⟨g, lexes, same⟩ := (lexes_of_tokenize cut).elsewhere (p.after lead)
  refine ⟨g, ?_, free.of_anywhere same, lexes.spaces blank⟩
  rintro rfl
  exact nonempty (List.map_eq_nil_iff.1 same.symm)

/-- One piece comes from each text, after the line feed that ends the separator before it. -/
theorem slicesFrom_joined {texts : List String} (statements : ∀ t ∈ texts, IsStatementText t)
    (feed : ∀ d ∈ lead, d = '\n') (whole : text = before ++ (lead ++ joinedChars texts))
    (place : p.offset = byteLength before) :
    ∃ ts, Lexes .mysql true p (lead ++ joinedChars texts) ts ∧
      (slicesFrom (byteLength before) false ts).map (Slice.piece text) =
        texts.map fun t => String.ofList (trim t.toList) := by
  -- On the texts. What leads a later one is the line feed that ends the separator before it, so
  -- `lead` stays general, as does the text in front.
  induction texts generalizing before lead p with
  | nil => exact ⟨[], Lexes.spaces (fun d hd => by rw [feed d hd]; rfl) .done, rfl⟩
  | cons t texts ih =>
    have blank : ∀ d ∈ lead, isSpace d = true := fun d hd => by rw [feed d hd]; rfl
    have blanks : ∀ d ∈ lead, isBlank d = true := fun d hd => isBlank_of_isSpace (blank d hd)
    obtain ⟨first, others⟩ := List.forall_mem_cons.1 statements
    obtain ⟨g, nonempty, free, lexes⟩ := first.lexes blank p
    have some : g.isEmpty = false := by simpa using nonempty
    cases texts with
    | nil =>
      have parts : lead ++ joinedChars [t] = lead ++ t.toList := by
        rw [joinedChars, List.map_singleton, List.intercalate_singleton]
      have trimmed : trim (lead ++ t.toList) = trim t.toList := by
        have around : trim (lead ++ (t.toList ++ [])) = trim t.toList :=
          trim_blank_append blanks (List.forall_mem_nil _)
        rwa [List.append_nil] at around
      refine ⟨g, by rwa [parts], ?_⟩
      rw [slicesFrom_of_undivided free, some, if_neg Bool.false_ne_true, List.map_singleton, whole,
        parts, Slice.piece_rest, trimmed, List.map_singleton]
    | cons t' texts =>
      obtain ⟨body, isBody⟩ : ∃ body, lead ++ t.toList ++ ['\n'] = body := ⟨_, rfl⟩
      have parts : lead ++ joinedChars (t :: t' :: texts) =
          body ++ ';' :: (['\n'] ++ joinedChars (t' :: texts)) := by
        simp [← isBody, joinedChars, separator, List.intercalate_cons_cons]
      have later_whole :
          text = before ++ body ++ [';'] ++ (['\n'] ++ joinedChars (t' :: texts)) := by
        simp [whole, parts]
      have later_place :
          (p.after (body ++ [';'])).offset = byteLength (before ++ body ++ [';']) := by
        rw [offset_after_of_eq place, List.append_assoc]
      obtain ⟨us, later, pieces⟩ := ih others (by simp) later_whole later_place
      have unreturned : '\r' ∉ lead ++ t.toList := by
        intro mem
        rcases List.mem_append.1 mem with mem | mem
        · cases feed _ mem
        · exact first.free mem
      rw [← isBody] at later
      obtain ⟨semi, isSemi, position, lexes⟩ := lexes.semicolon unreturned later
      rw [isBody] at position lexes
      refine ⟨g ++ semi :: us, by rwa [parts], ?_⟩
      obtain ⟨stop, next⟩ := offset_semicolon place position
      have trimmed : trim body = trim t.toList := by
        rw [← isBody, List.append_assoc]
        exact trim_blank_append blanks (by decide)
      rw [slicesFrom_semicolon free isSemi, some, if_neg Bool.false_ne_true, next, List.map_append,
        pieces, List.map_singleton, stop, whole, parts, Slice.piece_between, trimmed]
      rfl

/-- Joining statements and splitting the script gives them back, without the blanks around them,
and the parser's answer on each does not depend on the others. -/
theorem parse_joined {texts : List String} (statements : ∀ t ∈ texts, IsStatementText t) :
    split (separator.intercalate texts) =
        .ok (texts.map fun t => String.ofList (trim t.toList)) ∧
      ∀ keywords, Script.parse keywords (separator.intercalate texts) = texts.map fun t =>
        (String.ofList (trim t.toList),
          Statement.parse keywords (String.ofList (trim t.toList))) := by
  have chars : (separator.intercalate texts).toList = joinedChars texts := String.toList_intercalate
  have whole : (separator.intercalate texts).toList = [] ++ ([] ++ joinedChars texts) := chars
  obtain ⟨ts, lexes, pieces⟩ := slicesFrom_joined (p := .start) statements
    (List.forall_mem_nil _) whole rfl
  have cut : tokenize .mysql (separator.intercalate texts) = .ok ts := by
    rw [tokenize, chars]
    exact lexes.tokensFrom_eq
  have answer : split (separator.intercalate texts) =
      .ok (texts.map fun t => String.ofList (trim t.toList)) := by
    rw [split, cut, Except.map, piecesFrom_eq_map]
    exact congrArg Except.ok pieces
  refine ⟨answer, fun keywords => ?_⟩
  rw [Script.parse, answer]
  exact List.map_map

/-- Hyphens at the end of the first text are a comment there and in the script. -/
theorem parse_joined_hyphens :
    let rejected := "a --"
    let accepted := "ALTER TABLE t DROP x # ;"
    split "a --\n;\n ALTER TABLE t DROP x # ;" = .ok [rejected, accepted] ∧
      Script.parse .mysql "a --\n;\n ALTER TABLE t DROP x # ;" =
        [(rejected, Statement.parse .mysql rejected),
          (accepted, Statement.parse .mysql accepted)] := by
  intro rejected accepted
  have first : IsStatementText "a --" :=
    ⟨by decide, [⟨.identifier, "a", ⟨0, 1, 1⟩⟩], Parser.eq_ok_of_toOption (by decide +kernel),
      by decide, by decide⟩
  have second : IsStatementText " ALTER TABLE t DROP x # ;" :=
    ⟨by decide, [⟨.keyword, "ALTER", ⟨1, 1, 2⟩⟩, ⟨.keyword, "TABLE", ⟨7, 1, 8⟩⟩,
      ⟨.identifier, "t", ⟨13, 1, 14⟩⟩, ⟨.keyword, "DROP", ⟨15, 1, 16⟩⟩,
      ⟨.identifier, "x", ⟨20, 1, 21⟩⟩], Parser.eq_ok_of_toOption (by decide +kernel),
      by decide, by decide⟩
  obtain ⟨pieces, entries⟩ :=
    parse_joined (List.forall_mem_cons.2 ⟨first, List.forall_mem_singleton.2 second⟩)
  exact ⟨pieces, entries .mysql⟩

end Script
end TableDdl
