import TableDdl.Proofs.Layout.Lexemes
import TableDdl.Proofs.RoundTrip.Edges
import TableDdl.Proofs.Token.Scanning

/-!
# Tokens of layouts

A layout is spaced if lexemes without a space between them cannot run into each other. Its text
is then cut into the tokens of its lexemes.
-/
namespace TableDdl

open Text Scan

namespace Lexeme

/-- A word or a name, which a point may follow. -/
def isNamed : Lexeme → Bool
  | .word _ | .name _ => true
  | _ => false

/-- Whether the text of the lexeme is over where the character follows. -/
def stopsAt (l : Lexeme) (c : Char) : Bool :=
  [' ', '(', ')', ','].contains c || l.isNamed && c == '.' || match l with
    | .symbol text => text == "(" || text == "," || text == "." && (c == '\x60' || isWordStart c)
    | _ => false

/-- Any lexeme may follow without a space. -/
def isOpen : Lexeme → Bool
  | .symbol text => text == "(" || text == ","
  | _ => false

/-- The lexeme may follow any other without a space. -/
def attaches : Lexeme → Bool
  | .symbol text => text == "(" || text == ")" || text == ","
  | _ => false

/-- Whether the second lexeme may follow the first without a space. -/
def meets (l l' : Lexeme) : Bool :=
  l.isOpen || l'.attaches || l.isNamed && l' == .symbol "." || match l, l' with
    | .symbol text, .name _ => text == "."
    | _, _ => false

end Lexeme

/-- A space may stand anywhere. -/
def Piece.meets : Piece → Piece → Bool
  | .lexeme l, .lexeme l' => l.meets l'
  | _, _ => true

/-- The token without its place. -/
def Token.anywhere (t : Token) : Token := { t with position := .start }

/-- No lexeme runs into the next. -/
def Layout.Spaced (l : Layout) : Prop := l.IsChain fun a b => a.meets b = true

variable {l l' : Lexeme} {rest : List Char} {signed : Bool} {c : Char}

theorem isWordStart_of_isPlainStart (h : isPlainStart c = true) : isWordStart c = true := by
  rcases Bool.or_eq_true_iff.1 h with h | h
  · simp [isWordStart, isLetter_of_isAlpha h]
  · simp_all [isWordStart]

theorem isWordPart_of_isPlainPart (h : isPlainPart c = true) : isWordPart c = true := by
  simp only [isPlainPart, Char.isAlphanum, Bool.or_eq_true] at h
  rcases h with (h | h) | h
  · simp [isWordPart, isLetter_of_isAlpha h]
  · have bounds : '0'.toNat ≤ c.toNat ∧ c.toNat ≤ '9'.toNat := by
      simpa [Char.isDigit, UInt32.le_iff_toNat_le] using h
    have small : c.toNat < 0x80 := Nat.lt_of_le_of_lt bounds.2 (by decide)
    simp [isWordPart, isNumeral, small, h]
  · simp_all [isWordPart]

/-- The characters that end any lexeme are part of no other. -/
theorem closes_of_mem (mem : c ∈ [' ', '(', ')', ',']) :
    isWordPart c = false ∧ (c.isDigit = false ∧ c ≠ '.' ∧ c ≠ 'e' ∧ c ≠ 'E') ∧
      c ≠ '*' ∧ c ≠ '-' ∧ c ∉ ['>', '=', '|'] := by
  revert mem c
  decide

theorem scan_plain {text : String} (plain : isPlainWord text = true)
    (stop : ∀ d ∈ rest.head?, isWordPart d = false) :
    scan Keywords.mysql signed (text.toList ++ rest) =
      some ⟨some (wordKind Keywords.mysql text.toList), text.toList, rest⟩ := by
  obtain ⟨c, cs, whole, start, all⟩ := isPlainWord_iff.1 plain
  rw [whole]
  exact scan_word (isWordStart_of_isPlainStart start)
    (fun d hd => isWordPart_of_isPlainPart (List.all_eq_true.1 all d hd)) stop

/-- An operator of one character, unless it begins another token together with what follows. -/
theorem scan_single (mem : c ∈ singleOperators)
    (stop : ∀ d ∈ rest.head?, d ∈ [' ', '(', ')', ','] ∨ c = '(' ∨ c = ',' ∨
      c = '.' ∧ (d = '\x60' ∨ isWordStart d = true)) :
    scan Keywords.mysql signed (c :: rest) = some ⟨some .operator, [c], rest⟩ := by
  have notDigit : ∀ c ∈ singleOperators, c.isDigit = false := by decide
  have after (sign : c ≠ '(' ∧ c ≠ ',' ∧ c ≠ '.') (d : Char) (hd : d ∈ rest.head?) :
      d ∈ [' ', '(', ')', ','] := by
    rcases stop d hd with h | h | h | ⟨h, -⟩
    · exact h
    · exact absurd h sign.1
    · exact absurd h sign.2.1
    · exact absurd h sign.2.2
  -- The operator could begin a comment, a number or a longer operator; what follows rules out each.
  refine scan_operator (s := ([c], rest)) (by simp [operatorStarts, mem]) ?_ ?_
    (number?_eq_none (notDigit c mem) ?_ ?_) ?_
  · rintro rfl head
    exact (closes_of_mem (after (by decide) '*' head)).2.2.1 rfl
  · rintro rfl head
    exact (closes_of_mem (after (by decide) '-' head)).2.2.2.1 rfl
  · rintro rfl d hd
    rcases stop d hd with h | h | h | ⟨-, rfl | h⟩
    · exact (closes_of_mem h).2.1.1
    · cases h
    · cases h
    · rfl
    · cases digit : d.isDigit with
      | false => rfl
      | true => rw [isWordStart_eq_false_of_isDigit digit] at h; cases h
  · rintro isSign d hd
    have close := closes_of_mem (after (by rcases isSign with rfl | rfl <;> decide) d hd)
    exact ⟨close.2.1.1, close.2.1.2.1⟩
  · cases rest with
    | nil => simp [operator?, mem]
    | cons d ds =>
      have noDouble : [c, d] ∉ doubleOperators := by
        intro double
        obtain ⟨a, b, same, ⟨-, -, first⟩, second⟩ := exists_of_mem_doubleOperators double
        obtain ⟨rfl, rfl⟩ : c = a ∧ d = b := by simpa using same
        have sign : c ≠ '(' ∧ c ≠ ',' ∧ c ≠ '.' := by simp_all
        exact (closes_of_mem (after sign d rfl)).2.2.2.2 second
      simp [operator?, noDouble, mem]

namespace Lexeme

theorem isWordPart_eq_false_of_stopsAt (h : l.stopsAt c = true) (word : l.isNamed = true) :
    isWordPart c = false := by
  have mem : c ∈ [' ', '(', ')', ','] ∨ c = '.' := by
    cases l <;> simp_all [stopsAt, isNamed]
  rcases mem with mem | rfl
  · exact (closes_of_mem mem).1
  · decide

theorem scan_symbol {text : String} (writable : (symbol text).Writable)
    (stop : ∀ d ∈ rest.head?, (symbol text).stopsAt d = true) :
    scan Keywords.mysql signed (text.toList ++ rest) =
      some ⟨some .operator, text.toList, rest⟩ := by
  rcases writable with double | ⟨c, single, whole⟩
  · exact scan_double double
  · obtain rfl : text = String.ofList [c] := by rw [← whole, String.ofList_toList]
    simp only [String.toList_ofList]
    refine scan_single single fun d hd => ?_
    have here := stop d hd
    have is (e : Char) : (String.ofList [c] = String.ofList [e]) ↔ c = e := by
      simp
    have texts : "(" = String.ofList ['('] ∧ "," = String.ofList [','] ∧
        "." = String.ofList ['.'] := ⟨rfl, rfl, rfl⟩
    simp only [stopsAt, isNamed, texts, Bool.false_and, Bool.or_false, Bool.or_eq_true,
      List.contains_eq_mem, decide_eq_true_eq, beq_iff_eq, is, Bool.and_eq_true] at here
    exact here.imp_right or_assoc.1

theorem scan_quoteString {content : String} (writable : (string content).Writable) :
    scan Keywords.mysql signed ((string content).text ++ rest) =
      some ⟨some .string, (string content).text, rest⟩ := by
  simp only [text, Layout.quoteString]
  split
  · rename_i single
    have free : '"' ∉ content.toList := fun h => writable ⟨by simpa using single, h⟩
    simpa using scan_string (.inr rfl) free
  · rename_i free
    simpa using scan_string (.inl rfl) (by simpa using free)

/-- A lexeme is scanned as the one token that it is meant to be. -/
theorem scan_text (writable : l.Writable) (sign : signed = false → l.token.isSigned = false)
    (stop : ∀ d ∈ rest.head?, l.stopsAt d = true) :
    scan Keywords.mysql signed (l.text ++ rest) = some ⟨some l.kind, l.text, rest⟩ := by
  cases l with
  | word text =>
    have ended (d : Char) (hd : d ∈ rest.head?) : isWordPart d = false :=
      isWordPart_eq_false_of_stopsAt (stop d hd) rfl
    exact scan_plain writable ended
  | symbol text => exact scan_symbol writable stop
  | name label =>
    have ended (d : Char) (hd : d ∈ rest.head?) : isWordPart d = false :=
      isWordPart_eq_false_of_stopsAt (stop d hd) rfl
    simp only [text, Layout.quoteName, kind]
    split
    · rename_i bare
      obtain ⟨plain, free⟩ := Bool.and_eq_true_iff.1 bare
      rw [scan_plain plain ended]
      simp_all [wordKind]
    · simpa using scan_quotedName writable.1 writable.2
  | string content => exact scan_quoteString writable
  | integer n =>
    have ended (d : Char) (hd : d ∈ rest.head?) :=
      (closes_of_mem (c := d) (by simpa [stopsAt, isNamed] using stop d hd)).2.1
    have digits : ∀ d ∈ Number.digitsOf n ++ [], d.isDigit = true := fun d hd =>
      Nat.isDigit_of_mem_toDigits (by decide) (by decide) (List.append_nil _ ▸ hd)
    exact scan_number Nat.toDigits_ne_nil digits (absurd · Bool.false_ne_true) ended
  | number x =>
    have ended (d : Char) (hd : d ∈ rest.head?) :=
      (closes_of_mem (c := d) (by simpa [stopsAt, isNamed] using stop d hd)).2.1
    obtain ⟨whole, fraction, written, nonempty, digits, -⟩ := Number.magnitude_eq x
    have signs (negative : x.negative = true) : signed = true := by
      cases signed with
      | true => rfl
      | false =>
        have := sign rfl
        simp [Token.isSigned, token, kind, text, Number.Format.write, negative] at this
    simp only [text, Number.Format.write, written]
    exact scan_number nonempty digits signs ended

/-- What may follow a lexeme without a space stops it. -/
theorem stopsAt_of_meets (h : l.meets l' = true) (writable : l'.Writable) :
    ∀ d ∈ (l'.text ++ rest).head?, l.stopsAt d = true := by
  intro d hd
  simp only [meets, Bool.or_eq_true, Bool.and_eq_true, beq_iff_eq] at h
  rcases h with ((h | h) | ⟨named, rfl⟩) | h
  · cases l with
    | symbol text => simp_all [isOpen, stopsAt]
    | _ => cases h
  · cases l' with
    | symbol text =>
      have starts : d = '(' ∨ d = ')' ∨ d = ',' := by
        simp only [attaches, Bool.or_eq_true, beq_iff_eq] at h
        rcases h with (rfl | rfl) | rfl
        · exact .inl (by simpa [Lexeme.text, eq_comm] using hd)
        · exact .inr (.inl (by simpa [Lexeme.text, eq_comm] using hd))
        · exact .inr (.inr (by simpa [Lexeme.text, eq_comm] using hd))
      have mem : d ∈ [' ', '(', ')', ','] := by rcases starts with rfl | rfl | rfl <;> decide
      simp [stopsAt, mem]
    | _ => cases h
  · obtain rfl : '.' = d := by simpa [text] using hd
    simp [stopsAt, named]
  · cases l with
    | symbol text =>
      cases l' with
      | name label =>
        obtain rfl : text = "." := by simpa using h
        have starts : d = '\x60' ∨ isWordStart d = true := by
          simp only [Lexeme.text, Layout.quoteName] at hd
          split at hd
          · rename_i bare
            obtain ⟨c, cs, whole, start, -⟩ := isPlainWord_iff.1 (Bool.and_eq_true_iff.1 bare).1
            obtain rfl : c = d := by simpa [whole] using hd
            exact .inr (isWordStart_of_isPlainStart start)
          · exact .inl (by simpa [eq_comm] using hd)
        simp [stopsAt, starts]
      | _ => cases h
    | _ => cases h

end Lexeme

/-- What may stand after the layout without running into its last lexeme. -/
def Layout.StopsBefore (layout : Layout) (x : List Char) : Prop :=
  ∀ l, layout.getLast? = some (.lexeme l) → ∀ c ∈ x.head?, l.stopsAt c = true

theorem Layout.StopsBefore.tail {piece : Piece} {layout : Layout} {x : List Char}
    (h : StopsBefore (piece :: layout) x) : layout.StopsBefore x := by
  intro l last
  refine h l ?_
  cases layout with
  | nil => cases last
  | cons piece' layout => simpa using last

/-- What stands after the first lexeme of a spaced layout stops it. -/
theorem Layout.stopsAt_head {layout : Layout} {x : List Char}
    (spaced : Spaced (.lexeme l :: layout)) (writable : ∀ l' ∈ lexemes layout, l'.Writable)
    (stop : StopsBefore (.lexeme l :: layout) x) :
    ∀ d ∈ (layout.text ++ x).head?, l.stopsAt d = true := by
  obtain ⟨next, -⟩ := List.isChain_cons.1 spaced
  cases layout with
  | nil => simpa [text] using stop l rfl
  | cons piece layout =>
    have meets := next piece rfl
    cases piece with
    | space =>
      rintro d hd
      obtain rfl : ' ' = d := by simpa [text, Piece.text] using hd
      cases l <;> rfl
    | lexeme l' =>
      have stops : ∀ d ∈ (l'.text ++ (text layout ++ x)).head?, l.stopsAt d = true :=
        Lexeme.stopsAt_of_meets meets (writable l' (by simp [lexemes]))
      simpa [text, Piece.text] using stops

/-- The text of a spaced layout is cut into the tokens of its lexemes, in front of anything that
stops it. -/
theorem tokensFrom_text_append {layout : Layout} {x : List Char} (spaced : layout.Spaced)
    (writable : ∀ l ∈ layout.lexemes, l.Writable) (tame : Tame layout.lexemes)
    (first : signed = false → ∀ l ∈ layout.lexemes.head?, l.token.isSigned = false)
    (stop : layout.StopsBefore x) (p : Position) :
    ∃ ts signed', ts.map Token.anywhere = tokensOf layout.lexemes ∧
      tokensFrom Keywords.mysql signed p (layout.text ++ x) =
        (tokensFrom Keywords.mysql signed' (p.after layout.text) x).map (ts ++ ·) := by
  -- On the layout. Whether a sign may be taken depends on the lexeme before, as in `Tame`.
  induction layout generalizing signed p with
  | nil =>
    refine ⟨[], signed, rfl, ?_⟩
    cases cut : tokensFrom Keywords.mysql signed p x <;> simp [Layout.text, cut, Except.map]
  | cons piece layout ih =>
    obtain ⟨-, chain⟩ := List.isChain_cons.1 spaced
    cases piece with
    | space =>
      obtain ⟨ts, signed', same, cut⟩ := ih chain writable tame first stop.tail (p.next ' ')
      have step : tokensFrom Keywords.mysql signed p (' ' :: (Layout.text layout ++ x)) = _ :=
        tokensFrom_space (by decide)
      exact ⟨ts, signed', same, step.trans cut⟩
    | lexeme l =>
      have writable' : ∀ l' ∈ Layout.lexemes layout, l'.Writable :=
        fun l' hl' => writable l' (List.mem_cons_of_mem l hl')
      have scanned := Lexeme.scan_text (writable l (by simp [Layout.lexemes]))
        (fun off => first off l rfl) (Layout.stopsAt_head spaced writable' stop)
      obtain ⟨unsigned, tame⟩ := List.isChain_cons.1 tame
      have later : (!l.token.endsOperand Keywords.mysql) = false →
          ∀ l' ∈ (Layout.lexemes layout).head?, l'.token.isSigned = false :=
        fun ends l' hl' => unsigned l' hl' (by simpa using ends)
      obtain ⟨ts, signed', same, cut⟩ := ih chain writable' tame later stop.tail (p.after l.text)
      refine ⟨⟨l.kind, String.ofList l.text, p⟩ :: ts, signed', congrArg (l.token :: ·) same, ?_⟩
      have step := tokensFrom_of_scan_eq_some (p := p) scanned
      have ends : Token.endsOperand Keywords.mysql ⟨l.kind, String.ofList l.text, p⟩ =
          l.token.endsOperand Keywords.mysql := rfl
      have whole : Layout.text (.lexeme l :: layout) = l.text ++ Layout.text layout := rfl
      simp only [ends, cut] at step
      rw [whole, List.append_assoc, step, Position.after_append]
      cases tokensFrom Keywords.mysql signed' ((p.after l.text).after (Layout.text layout)) x <;> rfl

/-- The written form of a spaced layout has the tokens of its lexemes. -/
theorem tokenize_write {layout : Layout} (spaced : layout.Spaced)
    (writable : ∀ l ∈ layout.lexemes, l.Writable) (tame : Tame layout.lexemes) :
    ∃ ts, tokenize Keywords.mysql layout.write = .ok ts ∧
      ts.map Token.anywhere = tokensOf layout.lexemes := by
  have first : true = false → ∀ l ∈ layout.lexemes.head?, l.token.isSigned = false := nofun
  obtain ⟨ts, signed, same, cut⟩ :=
    tokensFrom_text_append (x := []) spaced writable tame first (by simp [Layout.StopsBefore]) .start
  exact ⟨ts, by simpa [tokenize, Layout.write, Except.map] using cut, same⟩

end TableDdl
