import TableDdl.Proofs.Text.Words
import TableDdl.Proofs.Token.Scanned

/-!
# Tokens under another table

A keyword table decides which words are keywords and, through the places where operands end,
which signs belong to numbers. Where the tables agree on these places, the tokens of a text under
one table are those under the other with their words tagged anew.
-/
namespace TableDdl

open Scan

variable {keywords other : Keywords} {signed : Bool} {p : Position} {cs : List Char}

namespace Scan

/-- The kind of a token with the text `taken` as the table has it: only words are tagged anew. -/
def retag (keywords : Keywords) (taken : List Char) (kind : Kind) : Kind :=
  if Token.isWord ⟨kind, String.ofList taken, .start⟩ then wordKind keywords taken else kind

end Scan

/-- The token as the table tags it: a word is a keyword or a name. -/
def Token.under (keywords : Keywords) (t : Token) : Token :=
  { t with kind := retag keywords t.text.toList t.kind }

@[simp] theorem Token.text_under (t : Token) : (t.under keywords).text = t.text := rfl

namespace Scan

/-- The cut as the table tags it. -/
def Cut.under (keywords : Keywords) (c : Cut) : Cut :=
  { c with kind := c.kind.map (retag keywords c.taken) }

theorem retag_word {taken rest : List Char} (h : word? cs = some (taken, rest)) :
    retag other taken (wordKind keywords taken) = wordKind other taken := by
  cases cs with
  | nil => simp [word?] at h
  | cons c cs =>
    simp only [word?, Option.ite_none_right_eq_some, Option.some.injEq, Prod.mk.injEq] at h
    obtain ⟨start, rfl, -⟩ := h
    have bare : c ≠ '\x60' := by
      rintro rfl
      revert start
      decide
    have word (kind : Kind) (h : kind = .keyword ∨ kind = .identifier) :
        Token.isWord ⟨kind, String.ofList (c :: cs.takeWhile isWordPart), .start⟩ = true := by
      rcases h with rfl | rfl <;> simp [Token.isWord, bare]
    apply if_pos
    apply word
    unfold wordKind
    split <;> simp

theorem retag_quotedName {taken rest : List Char} (h : quotedName? cs = some (taken, rest)) :
    retag other taken .identifier = .identifier := by
  unfold quotedName? at h
  split at h
  · split at h
    · simp only [Option.some.injEq, Prod.mk.injEq] at h
      obtain ⟨rfl, -⟩ := h
      simp [retag, Token.isWord]
    · simp at h
  · simp at h

theorem retag_of_ne {kind : Kind} (taken : List Char) (keyword : kind ≠ .keyword)
    (name : kind ≠ .identifier) : retag other taken kind = kind := by
  cases kind <;> simp_all [retag, Token.isWord]

theorem scan_under (keywords other : Keywords) (signed : Bool) (cs : List Char) :
    scan other signed cs = (scan keywords signed cs).map (Cut.under other) := by
  have words : (word? cs).map (fun s => cut (some (wordKind other s.1)) s) =
      ((word? cs).map fun s => cut (some (wordKind keywords s.1)) s).map (Cut.under other) := by
    rw [Option.map_map]
    refine Option.map_congr fun s hs => ?_
    simp [Cut.under, cut, retag_word hs]
  have quoted : (quotedName? cs).map (cut (some .identifier)) =
      ((quotedName? cs).map (cut (some .identifier))).map (Cut.under other) := by
    rw [Option.map_map]
    refine Option.map_congr fun s hs => ?_
    simp [Cut.under, cut, retag_quotedName hs]
  have blank (answer : Option Split) : answer.map (cut none) =
      (answer.map (cut none)).map (Cut.under other) := by
    rw [Option.map_map]
    rfl
  have same {kind : Kind} (keyword : kind ≠ .keyword) (name : kind ≠ .identifier)
      (answer : Option Split) : answer.map (cut (some kind)) =
        (answer.map (cut (some kind))).map (Cut.under other) := by
    rw [Option.map_map]
    refine Option.map_congr fun s _ => ?_
    simp [Cut.under, cut, retag_of_ne s.1 keyword name]
  unfold scan
  split
  · rw [Option.map_map]
    rfl
  · simp only [Option.orElse_eq_orElse, Option.orElse_eq_or, Option.map_or]
    rw [← words, ← quoted, ← blank, ← blank, ← same (by decide) (by decide),
      ← same (by decide) (by decide), ← same (by decide) (by decide)]

end Scan

/-- The tables agree on whether an operand ends at the token. -/
def Token.EndsAlike (keywords other : Keywords) (t : Token) : Prop :=
  (t.under other).endsOperand other = t.endsOperand keywords

/-- Under two tables that agree on where operands end, at all tokens or at those of a text that
has tokens, the tokens are the same up to the tags of words, and so is a lexical error. -/
theorem tokensFrom_under (agree : (∀ t, t.Sound keywords → Token.EndsAlike keywords other t) ∨
      ∃ ts, tokensFrom keywords signed p cs = .ok ts ∧ ∀ t ∈ ts, Token.EndsAlike keywords other t) :
    tokensFrom other signed p cs =
      (tokensFrom keywords signed p cs).map (List.map (Token.under other)) := by
  induction length : cs.length using Nat.strongRecOn generalizing signed p cs with
  | ind n ih =>
    have scans := scan_under keywords other signed cs
    cases found : scan keywords signed cs with
    | none =>
      have none : scan other signed cs = none := by rw [scans, found]; rfl
      by_cases empty : cs = []
      · simp [empty, Except.map]
      · rw [tokensFrom_of_scan_eq_none found empty, tokensFrom_of_scan_eq_none none empty]
        rfl
    | some c =>
      have shorter : c.rest.length < n := length ▸ length_rest_lt found
      have some : scan other signed cs = some (c.under other) := by rw [scans, found]; rfl
      rw [tokensFrom_of_scan_eq_some found] at agree ⊢
      rw [tokensFrom_of_scan_eq_some some]
      cases isToken : c.kind with
      | none =>
        simp only [isToken, Cut.under, Option.map_none] at agree ⊢
        exact ih _ shorter agree rfl
      | some kind =>
        let t : Token := ⟨kind, String.ofList c.taken, p⟩
        have tagged : (⟨retag other c.taken kind, String.ofList c.taken, p⟩ : Token) =
            t.under other := by simp [t, Token.under]
        simp only [isToken, Cut.under, Option.map_some, tagged] at agree ⊢
        -- Tables that agree on the tokens of this text agree on its first one and on the others.
        have here : t.EndsAlike keywords other := by
          rcases agree with all | ⟨ts, whole, all⟩
          · exact all t (sound_of_scan found isToken).1
          · cases later : tokensFrom keywords (!t.endsOperand keywords) (p.after c.taken) c.rest with
            | error e => simp [t, later, Except.map] at whole
            | ok ts' =>
              obtain rfl : t :: ts' = ts := by simpa [t, later, Except.map] using whole
              exact all t List.mem_cons_self
        have rest : (∀ t, t.Sound keywords → Token.EndsAlike keywords other t) ∨
            ∃ ts, tokensFrom keywords (!t.endsOperand keywords) (p.after c.taken) c.rest = .ok ts ∧
              ∀ t ∈ ts, Token.EndsAlike keywords other t := by
          rcases agree with all | ⟨ts, whole, all⟩
          · exact .inl all
          · cases later : tokensFrom keywords (!t.endsOperand keywords) (p.after c.taken) c.rest with
            | error e => simp [t, later, Except.map] at whole
            | ok ts' =>
              obtain rfl : t :: ts' = ts := by simpa [t, later, Except.map] using whole
              exact .inr ⟨ts', rfl, fun u hu => all u (List.mem_cons_of_mem t hu)⟩
        rw [here, ih _ shorter rest rfl]
        cases tokensFrom keywords (!t.endsOperand keywords) (p.after c.taken) c.rest <;> rfl

theorem tokenize_under {text : String}
    (agree : (∀ t, t.Sound keywords → Token.EndsAlike keywords other t) ∨
      ∃ ts, tokenize keywords text = .ok ts ∧ ∀ t ∈ ts, Token.EndsAlike keywords other t) :
    tokenize other text = (tokenize keywords text).map (List.map (Token.under other)) :=
  tokensFrom_under agree

end TableDdl
