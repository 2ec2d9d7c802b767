import TableDdl.Proofs.Layout.Tokens

/-!
# Lexing step by step

The tokens of a text as a relation, with one rule for each thing that may stand at its front: a
blank, a comment or a token. It holds just where the text has these tokens, and what is shown of
all such texts goes by induction on it. Main statement: where a text starts matters to the places
of its tokens and to nothing else.
-/
namespace TableDdl

open Scan

/-- From the place `p` on the text has these tokens, and the first of them may have a sign if
`signed`. -/
inductive Lexes (keywords : Keywords) : Bool → Position → List Char → List Token → Prop
  | done {signed : Bool} {p : Position} : Lexes keywords signed p [] []
  | space {signed : Bool} {p : Position} {c : Char} {cs : List Char} {ts : List Token}
    (blank : isSpace c = true) (later : Lexes keywords signed (p.next c) cs ts) :
    Lexes keywords signed p (c :: cs) ts
  | comment {signed : Bool} {p : Position} {c : Char} {cs taken rest : List Char}
    {ts : List Token} (solid : isSpace c = false)
    (found : scan keywords signed (c :: cs) = some ⟨none, taken, rest⟩)
    (later : Lexes keywords signed (p.after taken) rest ts) :
    Lexes keywords signed p (c :: cs) ts
  | token {signed : Bool} {p : Position} {c : Char} {cs taken rest : List Char} {kind : Kind}
    {ts : List Token} (solid : isSpace c = false)
    (found : scan keywords signed (c :: cs) = some ⟨some kind, taken, rest⟩)
    (later : Lexes keywords (!Token.endsOperand keywords ⟨kind, String.ofList taken, p⟩)
      (p.after taken) rest ts) :
    Lexes keywords signed p (c :: cs) (⟨kind, String.ofList taken, p⟩ :: ts)

variable {keywords : Keywords} {signed : Bool} {p : Position} {cs : List Char} {ts : List Token}

theorem Lexes.tokensFrom_eq (h : Lexes keywords signed p cs ts) :
    tokensFrom keywords signed p cs = .ok ts := by
  induction h with
  | done => exact tokensFrom_nil ..
  | space blank _ ih => rw [tokensFrom_space blank, ih]
  | comment _ found _ ih => rw [tokensFrom_of_scan_eq_some found, ih]
  | token _ found _ ih =>
    rw [tokensFrom_of_scan_eq_some found]
    simp only [ih, Except.map]

theorem lexes_of_tokensFrom (h : tokensFrom keywords signed p cs = .ok ts) :
    Lexes keywords signed p cs ts := by
  induction length : cs.length using Nat.strongRecOn generalizing signed p cs ts with
  | ind n ih =>
    cases cs with
    | nil =>
      obtain rfl : [] = ts := by simpa using h
      exact .done
    | cons c cs =>
      by_cases blank : isSpace c = true
      · rw [tokensFrom_space blank] at h
        exact .space blank (ih _ (length ▸ Nat.lt_succ_self _) h rfl)
      · have solid : isSpace c = false := by simpa using blank
        cases found : scan keywords signed (c :: cs) with
        | none => simp [tokensFrom_of_scan_eq_none found] at h
        | some cut =>
          have shorter : cut.rest.length < n := length ▸ length_rest_lt found
          rw [tokensFrom_of_scan_eq_some found] at h
          obtain ⟨_ | kind, taken, rest⟩ := cut
          · exact .comment solid found (ih _ shorter h rfl)
          · cases later : tokensFrom keywords
                (!Token.endsOperand keywords ⟨kind, String.ofList taken, p⟩) (p.after taken) rest with
            | error e => simp [later, Except.map] at h
            | ok us =>
              obtain rfl : _ :: us = ts := by simpa [later, Except.map] using h
              exact .token solid found (ih _ shorter later rfl)

theorem lexes_iff : Lexes keywords signed p cs ts ↔ tokensFrom keywords signed p cs = .ok ts :=
  ⟨Lexes.tokensFrom_eq, lexes_of_tokensFrom⟩

theorem lexes_of_tokenize {text : String} (h : tokenize keywords text = .ok ts) :
    Lexes keywords true .start text.toList ts :=
  lexes_of_tokensFrom h

/-- At another place the text has the same tokens at other places. -/
theorem Lexes.elsewhere (h : Lexes keywords signed p cs ts) (q : Position) :
    ∃ us, Lexes keywords signed q cs us ∧ us.map Token.anywhere = ts.map Token.anywhere := by
  induction h generalizing q with
  | done => exact ⟨[], .done, rfl⟩
  | space blank _ ih =>
    obtain ⟨us, later, same⟩ := ih (q.next _)
    exact ⟨us, .space blank later, same⟩
  | @comment _ _ _ _ taken _ _ solid found _ ih =>
    obtain ⟨us, later, same⟩ := ih (q.after taken)
    exact ⟨us, .comment solid found later, same⟩
  | @token _ _ _ _ taken _ kind _ solid found _ ih =>
    obtain ⟨us, later, same⟩ := ih (q.after taken)
    exact ⟨⟨kind, String.ofList taken, q⟩ :: us, .token solid found later,
      congrArg (Token.mk kind (String.ofList taken) .start :: ·) same⟩

/-- The kinds and texts of the tokens, where the text has tokens. -/
def unplacedFrom (keywords : Keywords) (signed : Bool) (p : Position) (cs : List Char) :
    Option (List Token) :=
  (tokensFrom keywords signed p cs).toOption.map (List.map Token.anywhere)

/-- The kinds and texts of the tokens of a text, if it has tokens. -/
def unplaced (keywords : Keywords) (text : String) : Option (List Token) :=
  unplacedFrom keywords true .start text.toList

theorem unplacedFrom_eq_some_iff {us : List Token} : unplacedFrom keywords signed p cs = some us ↔
    ∃ ts, Lexes keywords signed p cs ts ∧ ts.map Token.anywhere = us := by
  simp only [unplacedFrom, Option.map_eq_some_iff, lexes_iff]
  cases tokensFrom keywords signed p cs <;> simp [Except.toOption]

theorem unplacedFrom_eq (keywords : Keywords) (signed : Bool) (p q : Position) (cs : List Char) :
    unplacedFrom keywords signed p cs = unplacedFrom keywords signed q cs := by
  have half (p q : Position) (us : List Token) (h : unplacedFrom keywords signed p cs = some us) :
      unplacedFrom keywords signed q cs = some us := by
    obtain ⟨ts, lexes, rfl⟩ := unplacedFrom_eq_some_iff.1 h
    exact unplacedFrom_eq_some_iff.2 (lexes.elsewhere q)
  exact Option.ext fun us => ⟨half p q us, half q p us⟩

end TableDdl
