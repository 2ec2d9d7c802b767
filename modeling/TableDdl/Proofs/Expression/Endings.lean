import TableDdl.Expression.Equality
import TableDdl.Proofs.Grammar.Accepting
import TableDdl.Proofs.Grammar.Endings
import TableDdl.Proofs.RoundTrip.Parsing

/-!
# Where operands end

The scanner decides by the last token whether a sign is an operator or part of a number, and the
grammar decides where an operand ends. Main statement: the two agree, but for the wildcard. So a
sign after an operand is an operator, and no subtraction is read as two operands side by side.
-/
namespace TableDdl

open Grammar Text

variable {keywords : Keywords} {α : Type}

/-- A name or a literal, a value word, a name of the current time, a closing parenthesis or the
wildcard. -/
def Terminal.closesOperand : Terminal → Bool
  | .literal text => [")", "*", "NOW"].contains text || Token.valueWords.contains text
  | _ => true

/-- The values of the rule are operands, or what an operand stands in or is made of. -/
inductive OperandRule : {α : Type} → DdlRule α → Prop
  | term : OperandRule term
  | factor : OperandRule factor
  | summand : OperandRule summand
  | operand : OperandRule operand
  | condition : OperandRule (.call .condition)
  | expression : OperandRule expression
  | select : OperandRule select

namespace Token

variable {t : Token}

/-- A word that may end an operand is a value word, or it is not reserved. -/
theorem endsOperand_of_spells {text : String} (sound : t.Sound keywords)
    (closes : text = "NOW" ∨ text ∈ valueWords) (spells : t.spells text = true) :
    t.endsOperand keywords = true := by
  have plain : ∀ word ∈ "NOW" :: valueWords, isPlainWord word = true := by decide
  obtain ⟨word, same⟩ := word_of_spells sound (plain text (List.mem_cons.2 closes)) spells
  rw [endsOperand_of_isWord sound word, Bool.or_eq_true]
  rcases closes with rfl | value
  · left
    have free : Keyword.reservedWords.contains (upper "NOW") = false := by decide +kernel
    rw [isReserved_congr same, Keywords.isReserved_eq, free, Bool.and_false]
    rfl
  · right
    exact List.any_eq_true.2 ⟨text, value, same⟩

theorem ends_of_accepted (sound : t.Sound keywords)
    (accepted : t.Accepted keywords Terminal.closesOperand) :
    t.endsOperand keywords = true ∨ t.kind = .operator ∧ t.text = "*" := by
  obtain ⟨terminal, x, closes, accept⟩ := accepted
  cases terminal with
  | identifier =>
    cases kind : t.kind with
    | identifier => simp [endsOperand, kind]
    | keyword =>
      obtain ⟨free, -⟩ : keywords.isReserved t.text = false ∧ t.text = x := by
        simpa [Terminal.accept, kind] using accept
      simp [endsOperand, kind, free]
    | _ => simp [Terminal.accept, kind] at accept
  | string =>
    have kind : t.kind = .string := (Option.ite_none_right_eq_some.1 accept).1
    simp [endsOperand, kind]
  | number =>
    have kind : t.kind = .number := (Option.ite_none_right_eq_some.1 accept).1
    simp [endsOperand, kind]
  | literal text =>
    have spells : t.spells text = true := (Option.ite_none_right_eq_some.1 accept).1
    have closes : text = ")" ∨ text = "*" ∨ text = "NOW" ∨ text ∈ valueWords := by
      simpa [Terminal.closesOperand, or_assoc] using closes
    rcases closes with rfl | rfl | word
    · obtain ⟨kind, text⟩ := operator_of_spells sound (by decide) spells
      simp [endsOperand, kind, text]
    · exact .inr (operator_of_spells sound (by decide) spells)
    · exact .inl (endsOperand_of_spells sound word spells)

/-- A token that starts with a sign and is no number is the sign. -/
theorem sign_of_isSigned_eq_false {c : Char} (sound : t.Sound keywords)
    (unsigned : t.isSigned = false) (starts : t.text.toList.head? = some c)
    (sign : c = '+' ∨ c = '-') : t.kind = .operator ∧ t.text = String.ofList [c] := by
  have odd : Scan.isWordStart c = false ∧ c ≠ '\x60' ∧ c ≠ '\x27' ∧ c ≠ '"' := by
    rcases sign with rfl | rfl <;> decide
  obtain ⟨kind, text, position⟩ := t
  have word : ¬ IsWord text := by
    rintro ⟨d, ds, whole, start, -⟩
    obtain rfl : d = c := by simpa [whole] using starts
    rw [odd.1] at start
    cases start
  cases kind with
  | keyword => exact absurd sound.1 word
  | identifier =>
    rcases sound with ⟨isWord, -⟩ | ⟨name, quoted, -⟩
    · exact absurd isWord word
    · have quoted : text.toList = '\x60' :: (name ++ ['\x60']) := quoted
      rw [quoted] at starts
      exact absurd (Option.some.inj starts).symm odd.2.1
  | string =>
    obtain ⟨quote, content, isQuote, whole, -⟩ := sound
    have whole : text.toList = quote :: (content ++ [quote]) := whole
    rw [whole] at starts
    obtain rfl : quote = c := Option.some.inj starts
    exact (isQuote.elim odd.2.2.1 odd.2.2.2).elim
  | number =>
    rcases sign with rfl | rfl <;> simp [isSigned, starts] at unsigned
  | operator =>
    refine ⟨rfl, ?_⟩
    rcases sound with double | ⟨d, -, whole⟩
    · have heads : ∀ symbol ∈ Scan.doubleOperators, symbol.head? ≠ some '+' ∧
          symbol.head? ≠ some '-' := by decide
      have := heads _ double
      rcases sign with rfl | rfl
      · exact absurd starts this.1
      · exact absurd starts this.2
    · have whole : text.toList = [d] := whole
      obtain rfl : d = c := by simpa [whole] using starts
      rw [← whole, String.ofList_toList]

end Token

theorem endsIn_closesOperand (name : Nonterminal α) :
    name.rule.endsIn Terminal.closesOperand = true ∧ name.rule.nullable = false := by
  cases name <;> exact ⟨by decide, by decide⟩

theorem OperandRule.endsIn_closesOperand {r : DdlRule α} (rule : OperandRule r) :
    r.endsIn Terminal.closesOperand = true ∧ r.nullable = false := by
  cases rule <;> exact ⟨by decide, by decide⟩

/-- Whatever stands where the grammar ends an operand, the scanner has ended one there as well,
unless it is a wildcard. A sign that comes next is then an operator of its own. -/
theorem sign_after_operand {text : String} {ts : List Token}
    (tokens : tokenize keywords text = .ok ts) {r : DdlRule α} (rule : OperandRule r)
    {calls start depth : Nat} {notes : Option Failure} {x : α} {next : Cursor}
    (run : ((Engine.standard keywords).run Nonterminal.rule calls r
      ⟨start, ts.drop start, depth⟩ notes).1 = .matched x next) :
    ∃ last, start < next.pos ∧ ts[next.pos - 1]? = some last ∧
      (last.endsOperand keywords = true ∨ last.kind = .operator ∧ last.text = "*") ∧
      (¬ (last.kind = .operator ∧ last.text = "*") → ∀ t c, ts[next.pos]? = some t →
        t.text.toList.head? = some c → c = '+' ∨ c = '-' →
        t.kind = .operator ∧ t.text = String.ofList [c]) := by
  obtain ⟨ends, solid⟩ := rule.endsIn_closesOperand
  obtain ⟨sound, chain⟩ := scanned_of_tokenize tokens
  obtain ⟨taken, whole, length, filled, closes⟩ :=
    Engine.endsAs_of_run (e := .standard keywords) endsIn_closesOperand run
  obtain ⟨front, last, rfl⟩ := (List.eq_nil_or_concat taken).resolve_left (filled solid)
  have pos : next.pos = start + (front.length + 1) := by simpa using length
  have onwards : ts.drop start = front ++ last :: next.rest := by simpa using whole
  have at' (i : Nat) : ts[start + i]? = (front ++ last :: next.rest)[i]? := by
    rw [← onwards, List.getElem?_drop]
  have last' : last ∈ ts := List.mem_of_mem_drop (i := start) (by simp [onwards])
  -- A terminal that closes an operand took the last token.
  have ended := Token.ends_of_accepted (sound last last') (closes ends last (by simp))
  refine ⟨last, by omega, ?_, ended, fun plain t c next' starts sign => ?_⟩
  · rw [pos, show start + (front.length + 1) - 1 = start + front.length by omega, at']
    simp
  · have after : next.rest.head? = some t := by
      rw [pos, at'] at next'
      simpa [List.getElem?_append_right, List.head?_eq_getElem?] using next'
    rw [← List.take_append_drop start ts, onwards] at chain
    have follows := chain.right_of_append.right_of_append
    have unsigned := (List.isChain_cons.1 follows).1 t after (ended.resolve_right plain)
    exact Token.sign_of_isSigned_eq_false (sound t (List.mem_of_getElem? next')) unsigned starts sign

/-- After a value word the sign is no part of the number. -/
theorem sign_after_operand_null :
    let ts : List Token := [⟨.keyword, "null", ⟨0, 1, 1⟩⟩, ⟨.operator, "-", ⟨5, 1, 6⟩⟩,
      ⟨.number, "1", ⟨6, 1, 7⟩⟩]
    tokenize .mysql "null -1" = .ok ts ∧
    ∃ last, 0 < 1 ∧ ts[1 - 1]? = some last ∧
      (last.endsOperand .mysql = true ∨ last.kind = .operator ∧ last.text = "*") ∧
      (¬ (last.kind = .operator ∧ last.text = "*") → ∀ t c, ts[1]? = some t →
        t.text.toList.head? = some c → c = '+' ∨ c = '-' →
        t.kind = .operator ∧ t.text = String.ofList [c]) := by
  intro ts
  have tokens : tokenize .mysql "null -1" = .ok ts := Parser.eq_ok_of_toOption (by decide +kernel)
  have run : ((Engine.standard .mysql).run Nonterminal.rule 2 Grammar.factor
      ⟨0, ts.drop 0, 0⟩ none).1 = .matched (.product .null []) ⟨1, ts.drop 1, 0⟩ := by
    decide +kernel
  exact ⟨tokens, sign_after_operand tokens .factor run⟩

end TableDdl
