import TableDdl.Grammar.Rule
import TableDdl.Proofs.Token.Retagged

/-!
# Terminals under two tables

A terminal asks a table only whether a word is reserved. Where two tables agree on that for the
words of a text, no terminal tells a token from the same token tagged by the other table, and the
tables agree on where operands end.
-/
namespace TableDdl

open Text

variable {keywords other : Keywords} {t : Token}

theorem unquote_of_isWord {text : String} (h : IsWord text) : Terminal.unquote text = text := by
  obtain ⟨c, cs, whole, start, -⟩ := h
  have bare := isWordPart_ne (.inl start)
  simp [Terminal.unquote, whole, bare]

/-- Only its literal takes an operator. -/
theorem Terminal.eq_of_accept_operator {keywords : Keywords} {terminal : Terminal} {value : String}
    (kind : t.kind = .operator) (accepted : terminal.accept keywords t = some value) :
    terminal = .literal t.text := by
  cases terminal with
  | literal word =>
    obtain ⟨same, -⟩ : t.text = word ∧ word = value := by
      simpa [accept, Token.spells, Token.isWord, kind] using accepted
    rw [same]
  | identifier => simp [accept, kind] at accepted
  | string => simp [accept, kind] at accepted
  | number => simp [accept, kind] at accepted

namespace Token

/-- The tables agree on whether the token is a reserved word. -/
def ReservedAlike (keywords other : Keywords) (t : Token) : Prop :=
  t.isWord = true → other.isReserved t.text = keywords.isReserved t.text

theorem isWord_cases (sound : t.Sound keywords) (word : t.isWord = true) :
    IsWord t.text ∧ (t.kind = .keyword ∨
      t.kind = .identifier ∧ keywords.isReserved t.text = false) := by
  obtain ⟨kind, text, position⟩ := t
  cases kind with
  | keyword => exact ⟨sound.1, .inl rfl⟩
  | identifier =>
    rcases sound with ⟨isWord, free⟩ | ⟨name, quoted, -, -⟩
    · have free : keywords.isKeyword text = false := free
      exact ⟨isWord, .inr ⟨rfl, Keywords.isReserved_eq_false free⟩⟩
    · have quoted : text.toList = '\x60' :: (name ++ ['\x60']) := quoted
      simp [isWord, quoted] at word
  | _ => simp [isWord] at word

/-- A word is taken as a name unless it is reserved. -/
theorem accept_identifier_of_isWord (sound : t.Sound keywords) (word : t.isWord = true) :
    Terminal.identifier.accept keywords t =
      if keywords.isReserved t.text then none else some t.text := by
  obtain ⟨isWord, kind | ⟨kind, free⟩⟩ := isWord_cases sound word
  · simp [Terminal.accept, kind]
  · simp [Terminal.accept, kind, free, unquote_of_isWord isWord]

theorem endsOperand_of_isWord (sound : t.Sound keywords) (word : t.isWord = true) :
    t.endsOperand keywords =
      (!keywords.isReserved t.text || valueWords.any (sameWord t.text)) := by
  obtain ⟨-, kind | ⟨kind, free⟩⟩ := isWord_cases sound word
  · simp [endsOperand, kind]
  · simp [endsOperand, kind, free]

/-- A token that spells an operator is that operator. -/
theorem operator_of_spells {text : String} (sound : t.Sound keywords)
    (odd : startsWord text = false) (spells : t.spells text = true) :
    t.kind = .operator ∧ t.text = text := by
  cases word : t.isWord with
  | false => simpa [Token.spells, word] using spells
  | true =>
    obtain ⟨isWord, -⟩ := isWord_cases sound word
    rw [Token.spells, if_pos word, sameWord_eq_false isWord odd] at spells
    cases spells

/-- A token that spells a word is a word, in some letter case. -/
theorem word_of_spells {text : String} (sound : t.Sound keywords)
    (plain : isPlainWord text = true) (spells : t.spells text = true) :
    t.isWord = true ∧ sameWord t.text text = true := by
  cases word : t.isWord with
  | true => exact ⟨rfl, by simpa [Token.spells, word] using spells⟩
  | false =>
    obtain ⟨kind, rfl⟩ : t.kind = .operator ∧ t.text = text := by
      simpa [Token.spells, word] using spells
    have odd : ∀ symbol ∈ Scan.doubleOperators ++ Scan.singleOperators.map ([·]),
        isPlainWord (String.ofList symbol) = false := by decide
    have mem : t.text.toList ∈ Scan.doubleOperators ++ Scan.singleOperators.map ([·]) := by
      rw [Sound, kind] at sound
      rcases sound with double | ⟨c, single, whole⟩
      · exact List.mem_append_left _ double
      · exact List.mem_append_right _ (List.mem_map.2 ⟨c, single, whole.symm⟩)
    have := odd _ mem
    rw [String.ofList_toList, plain] at this
    cases this

theorem sound_under (other : Keywords) (sound : t.Sound keywords) (word : t.isWord = true) :
    (t.under other).Sound other ∧ (t.under other).isWord = true := by
  obtain ⟨isWord, -⟩ := isWord_cases sound word
  have bare : t.text.toList.head? ≠ some '\x60' := by
    obtain ⟨c, cs, whole, start, -⟩ := isWord
    simp [whole, isWordPart_ne (.inl start)]
  have tagged : t.under other = { t with kind := Scan.wordKind other t.text.toList } := by
    have word : Token.isWord ⟨t.kind, String.ofList t.text.toList, .start⟩ = true := by
      simpa [Token.isWord] using word
    rw [Token.under, Scan.retag, if_pos word]
  rw [tagged]
  by_cases keyword : other.isKeyword t.text = true
  · simp [Scan.wordKind, keyword, Sound, Token.isWord, isWord]
  · simp [Scan.wordKind, keyword, Sound, Token.isWord, isWord, bare]

theorem under_eq_self (word : t.isWord = false) : t.under other = t := by
  have word : Token.isWord ⟨t.kind, String.ofList t.text.toList, .start⟩ = false := by
    simpa [Token.isWord] using word
  rw [Token.under, Scan.retag, if_neg (by rw [word]; exact Bool.false_ne_true)]

theorem isWord_under (sound : t.Sound keywords) :
    (t.under other).isWord = t.isWord := by
  cases word : t.isWord with
  | true => exact (sound_under other sound word).2
  | false => rw [under_eq_self word, word]

theorem endsAlike_of_reservedAlike (sound : t.Sound keywords) (same : t.ReservedAlike keywords other) :
    t.EndsAlike keywords other := by
  cases word : t.isWord with
  | true =>
    obtain ⟨sound', word'⟩ := sound_under other sound word
    rw [EndsAlike, endsOperand_of_isWord sound' word', endsOperand_of_isWord sound word, text_under,
      same word]
  | false =>
    obtain ⟨kind, text, position⟩ := t
    rw [EndsAlike, under_eq_self word]
    cases kind <;> simp_all [endsOperand, Token.isWord]

/-- No terminal tells the token from the same token under the other table. -/
theorem accept_under (sound : t.Sound keywords) (same : t.ReservedAlike keywords other)
    (terminal : Terminal) :
    terminal.accept other (t.under other) = terminal.accept keywords t := by
  cases word : t.isWord with
  | true =>
    obtain ⟨sound', word'⟩ := sound_under other sound word
    cases terminal with
    | literal literal => simp [Terminal.accept, spells, word, word']
    | identifier =>
      rw [accept_identifier_of_isWord sound' word', accept_identifier_of_isWord sound word,
        text_under, same word]
    | _ =>
      have kind (u : Token) (h : u.isWord = true) : u.kind ≠ .string ∧ u.kind ≠ .number := by
        obtain ⟨kind, text, position⟩ := u
        cases kind <;> simp_all [Token.isWord]
      simp [Terminal.accept, kind t word, kind _ word']
  | false =>
    rw [under_eq_self word]
    obtain ⟨kind, text, position⟩ := t
    cases terminal with
    | identifier => cases kind <;> simp_all [Terminal.accept, Token.isWord]
    | _ => rfl

end Token
end TableDdl
