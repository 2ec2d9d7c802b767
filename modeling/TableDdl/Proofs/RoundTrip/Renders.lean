import TableDdl.Proofs.RoundTrip.Atoms

/-!
# Tokens and their written forms

A token of an expression is written as one lexeme, which depends on the role in which the token
was read. A name may lose what made it a word of the rules, and a time function in quotes becomes
a word; up to that, the rules cannot tell a token from the lexeme.
-/
namespace TableDdl

open Text

/-- The words that the rules of expressions and queries take as such; those of them that are not
reserved may be names as well. -/
def expressionWords : List String :=
  ["ALL", "AND", "ANY", "AS", "BETWEEN", "BY", "CURRENT_TIMESTAMP", "DISTINCT", "EXISTS", "FALSE",
    "FROM", "GROUP", "IN", "IS", "LIKE", "LIMIT", "LOCALTIME", "LOCALTIMESTAMP", "NOT", "NULL",
    "OFFSET", "OR", "SELECT", "SOME", "TOP", "TRUE", "VALUES", "WHERE"]

/-- The words of expressions and of the ends of ranges, which may stand among them. -/
def replayedWords : List String := "MAXVALUE" :: expressionWords

theorem isPlainWord_of_mem_replayedWords {text : String} (h : text ∈ replayedWords) :
    isPlainWord text = true := by
  have plain : ∀ word ∈ replayedWords, isPlainWord word = true := by decide
  exact plain text h

/-- How a token may be written. -/
inductive Renders (t : Token) : Lexeme → Prop
  | word {text : String} : t.kind = .keyword → sameWord t.text text = true →
      text ∈ replayedWords → Renders t (.word text)
  | symbol {text : String} : t.kind = .operator → t.text = text → text ≠ ";" →
      Renders t (.symbol text)
  /-- The second spelling of the operator for unequal is written as the first. -/
  | unequal : t.kind = .operator → t.text = "!=" → Renders t (.symbol "<>")
  | name {name : String} : Terminal.identifier.accept Keywords.mysql t = some name →
      Renders t (.name name)
  /-- A time function that was read as a name is written as a word. -/
  | head {name : String} : Terminal.identifier.accept Keywords.mysql t = some name →
      timeFunctionNames.any (sameWord name) = true → Renders t (.word name)
  | string {content : String} : Terminal.string.accept Keywords.mysql t = some content →
      Renders t (.string content)
  | number {x : Number.Binary64} : t.kind = .number →
      Number.Binary64.ofText? t.text.toList = some x → Renders t (.number x)

namespace Terminal

/-- What refuses a token refuses its written form. -/
def steady : Terminal → Bool
  | .literal text =>
    if isPlainWord text then Keywords.mysql.isKeyword text && !timeFunctionNames.any (sameWord text)
    else text != "<>"
  | _ => true

/-- What accepts a token accepts its written form. -/
def firm : Terminal → Bool
  | .literal text =>
    if isPlainWord text then Keywords.mysql.isReserved text
    else text != "!=" && !startsWord text
  | .identifier => false
  | _ => true

end Terminal

namespace Renders

variable {t : Token} {l : Lexeme}

theorem isPlainWord_of_timeFunction {name : String}
    (h : timeFunctionNames.any (sameWord name) = true) : isPlainWord name = true := by
  have plain : ∀ word ∈ timeFunctionNames, isPlainWord word = true := by decide
  obtain ⟨word, mem, same⟩ := List.any_eq_true.1 h
  rw [isPlainWord_congr same]
  exact plain word mem

theorem writable (h : Renders t l) (sound : t.Sound Keywords.mysql) : l.Writable := by
  cases h with
  | word _ _ listed => exact isPlainWord_of_mem_replayedWords listed
  | symbol kind text _ =>
    rw [Token.Sound, kind] at sound
    rw [← text]
    exact sound
  | unequal _ _ => decide
  | name accepted => exact nameOk_of_accept sound accepted
  | head _ time => exact isPlainWord_of_timeFunction time
  | string accepted => exact writable_of_accept_string sound accepted
  | number _ _ => trivial

theorem kind_word (text : String) :
    (Lexeme.word text).kind ≠ .string ∧ (Lexeme.word text).kind ≠ .number := by
  simp only [Lexeme.kind, Scan.wordKind]
  split <;> simp

/-- A word of the rules is taken for the same words as the token was. -/
theorem accept_word {text : String} (terminal : Terminal) (kind : t.kind = .keyword)
    (same : sameWord t.text text = true) (plain : isPlainWord text = true) :
    (terminal.accept Keywords.mysql (Lexeme.word text).token).isSome =
      (terminal.accept Keywords.mysql t).isSome := by
  obtain ⟨kind', text', position⟩ := t
  obtain rfl : kind' = .keyword := kind
  have same : sameWord text' text = true := same
  cases terminal with
  | literal literal =>
    rw [Terminal.accept_literal_word plain]
    simp [Terminal.accept, Token.spells, Token.isWord, sameWord_congr same]
  | identifier =>
    rw [Terminal.accept_identifier_word plain]
    simp only [Terminal.accept, isReserved_congr same]
    split <;> rfl
  | string => simp [Terminal.accept, Lexeme.token, kind_word]
  | number => simp [Terminal.accept, Lexeme.token, kind_word]

theorem refuses {terminal : Terminal} (h : Renders t l) (steady : terminal.steady = true)
    (refused : terminal.accept Keywords.mysql t = none) :
    terminal.accept Keywords.mysql l.token = none := by
  cases h with
  | word kind same listed =>
    have plain := isPlainWord_of_mem_replayedWords listed
    rw [← Option.not_isSome_iff_eq_none, accept_word terminal kind same plain]
    simp [refused]
  | symbol kind text _ =>
    cases terminal with
    | literal literal =>
      rw [Terminal.accept_literal_symbol]
      simpa [Terminal.accept, Token.spells, Token.isWord, kind, text] using refused
    | _ => simp [Terminal.accept, Lexeme.token, Lexeme.kind]
  -- It is written as `<>`, and the literal that takes this is not steady.
  | unequal kind text =>
    cases terminal with
    | literal literal =>
      rw [Terminal.accept_literal_symbol]
      simp only [ite_eq_right_iff, reduceCtorEq, imp_false]
      rintro rfl
      revert steady
      decide
    | _ => simp [Terminal.accept, Lexeme.token, Lexeme.kind]
  | name accepted =>
    cases terminal with
    | literal literal =>
      apply Terminal.accept_literal_name
      cases plain : isPlainWord literal with
      | false => exact .inr rfl
      | true => simp_all [Terminal.steady]
    | identifier => simp_all
    | _ => simp [Terminal.accept, Lexeme.token, Lexeme.kind]
  -- A head is written bare, and no steady literal takes a time function.
  | @head name accepted time =>
    have plain := isPlainWord_of_timeFunction time
    cases terminal with
    | literal literal =>
      rw [Terminal.accept_literal_word plain]
      simp only [ite_eq_right_iff, reduceCtorEq, imp_false]
      intro same
      have congr : timeFunctionNames.any (sameWord literal) = true := by
        obtain ⟨word, mem, named⟩ := List.any_eq_true.1 time
        exact List.any_eq_true.2 ⟨word, mem, by rw [← sameWord_congr same, named]⟩
      simp [Terminal.steady, ← isPlainWord_congr same, plain, congr] at steady
    | identifier => simp_all
    | _ => simp [Terminal.accept, Lexeme.token, kind_word]
  | string accepted =>
    cases terminal with
    | string =>
      rw [Terminal.accept_string_string]
      simp_all
    | _ => simp [Terminal.accept, Lexeme.token, Lexeme.kind, Token.spells, Token.isWord]
  | number kind text =>
    cases terminal with
    | number => simp [Terminal.accept, kind] at refused
    | _ => simp [Terminal.accept, Lexeme.token, Lexeme.kind, Token.spells, Token.isWord]

/-- A token that can be a name is no operator and no reserved word. -/
theorem accept_literal_of_name {name literal : String} (sound : t.Sound Keywords.mysql)
    (accepted : Terminal.identifier.accept Keywords.mysql t = some name)
    (firm : (Terminal.literal literal).firm = true) :
    (Terminal.literal literal).accept Keywords.mysql t = none := by
  obtain ⟨kind, text, position⟩ := t
  have apart (word : IsWord text) (free : Keywords.mysql.isReserved text = false) :
      sameWord text literal = false := by
    cases same : sameWord text literal with
    | false => rfl
    | true =>
      cases plain : isPlainWord literal with
      | true => simp [Terminal.firm, plain, ← isReserved_congr same, free] at firm
      | false =>
        have odd : startsWord literal = false := by simp_all [Terminal.firm]
        rw [sameWord_eq_false word odd] at same
        cases same
  have spells : Token.spells ⟨kind, text, position⟩ literal = false := by
    cases kind with
    | identifier =>
      rcases sound with ⟨word, free⟩ | ⟨name, quoted, -, -⟩
      · have free : Keywords.mysql.isKeyword text = false := free
        simp [Token.spells, apart word (Keywords.isReserved_eq_false free)]
      · have quoted : text.toList = '\x60' :: (name ++ ['\x60']) := quoted
        simp [Token.spells, Token.isWord, quoted]
    | keyword =>
      have free : Keywords.mysql.isReserved text = false := by
        cases reserved : Keywords.mysql.isReserved text with
        | false => rfl
        | true => simp [Terminal.accept, reserved] at accepted
      simp [Token.spells, Token.isWord, apart sound.1 free]
    | _ => simp [Terminal.accept] at accepted
  simp [Terminal.accept, spells]

/-- A token that can be a name is none of the tokens that keep their role. -/
theorem accept_of_name {name : String} {terminal : Terminal} (sound : t.Sound Keywords.mysql)
    (accepted : Terminal.identifier.accept Keywords.mysql t = some name)
    (firm : terminal.firm = true) : terminal.accept Keywords.mysql t = none := by
  cases terminal with
  | literal literal => exact accept_literal_of_name sound accepted firm
  | identifier => cases firm
  | _ => cases kind : t.kind <;> simp [Terminal.accept, kind] at accepted ⊢

theorem accepts {terminal : Terminal} {x : String} (h : Renders t l)
    (sound : t.Sound Keywords.mysql) (firm : terminal.firm = true)
    (accepted : terminal.accept Keywords.mysql t = some x) :
    ∃ y, terminal.accept Keywords.mysql l.token = some y := by
  rw [← Option.isSome_iff_exists]
  cases h with
  | word kind same listed =>
    have plain := isPlainWord_of_mem_replayedWords listed
    rw [accept_word terminal kind same plain]
    simp [accepted]
  | symbol kind text _ =>
    cases terminal with
    | literal literal =>
      rw [Terminal.accept_literal_symbol]
      simp [Terminal.accept, Token.spells, Token.isWord, kind, text] at accepted
      simp [accepted]
    | _ => simp [Terminal.accept, kind] at accepted
  | unequal kind text =>
    cases terminal with
    | literal literal =>
      simp [Terminal.accept, Token.spells, Token.isWord, kind, text] at accepted
      obtain ⟨rfl, -⟩ := accepted
      revert firm
      decide
    | _ => simp [Terminal.accept, kind] at accepted
  | name named => simp [accept_of_name sound named firm] at accepted
  | head named _ => simp [accept_of_name sound named firm] at accepted
  | string named =>
    cases terminal with
    | string => simp [Terminal.accept_string_string]
    | identifier => cases firm
    | _ =>
      obtain ⟨kind, -⟩ : t.kind = .string ∧ _ := by simpa [Terminal.accept] using named
      simp [Terminal.accept, kind, Token.spells, Token.isWord] at accepted
  | number kind text =>
    cases terminal with
    | number => simp [Terminal.accept_number_number]
    | identifier => cases firm
    | _ => simp [Terminal.accept, kind, Token.spells, Token.isWord] at accepted

/-- A token that spells a word of the table is that keyword. -/
theorem kind_of_spells {text : String} (sound : t.Sound Keywords.mysql)
    (plain : isPlainWord text = true) (keyword : Keywords.mysql.isKeyword text = true)
    (spells : t.spells text = true) : t.kind = .keyword ∧ sameWord t.text text = true := by
  obtain ⟨kind, text', position⟩ := t
  cases kind with
  | keyword => exact ⟨rfl, by simpa [Token.spells, Token.isWord] using spells⟩
  | identifier =>
    rcases sound with ⟨word, free⟩ | ⟨name, quoted, -, -⟩
    · have free : Keywords.mysql.isKeyword text' = false := free
      have bare : text'.toList.head? ≠ some '\x60' := by
        obtain ⟨c, cs, whole, start, -⟩ := word
        have whole : text'.toList = c :: cs := whole
        simp [whole, isWordPart_ne (.inl start)]
      have same : sameWord text' text = true := by
        simpa [Token.spells, Token.isWord, bare] using spells
      rw [isKeyword_congr same, keyword] at free
      cases free
    · have quoted : text'.toList = '\x60' :: (name ++ ['\x60']) := quoted
      simp [Token.spells, Token.isWord, quoted] at spells
  | operator =>
    obtain rfl : text' = text := by simpa [Token.spells, Token.isWord] using spells
    have odd : ∀ symbol ∈ Scan.doubleOperators ++ Scan.singleOperators.map ([·]),
        isPlainWord (String.ofList symbol) = false := by decide
    have mem : text'.toList ∈ Scan.doubleOperators ++ Scan.singleOperators.map ([·]) := by
      rcases sound with double | ⟨c, single, whole⟩
      · exact List.mem_append_left _ double
      · exact List.mem_append_right _ (List.mem_map.2 ⟨c, single, whole.symm⟩)
    have := odd _ mem
    rw [String.ofList_toList, plain] at this
    cases this
  | _ => simp [Token.spells, Token.isWord] at spells

end Renders

/-- A closing parenthesis comes next. -/
def Closes (rest : List Token) : Prop :=
  ∃ t ts, rest = t :: ts ∧ t.kind = .operator ∧ t.text = ")"

/-- The statement is over. -/
def Over (rest : List Token) : Prop :=
  ∀ t ∈ rest.head?, t.kind = .operator ∧ t.text = ";"

/-- The tokens that were read and those that are written match up to the end of the parentheses
or of the statement. -/
inductive Inside : List Token → List Token → Prop
  | closed {rest rest' : List Token} : Closes rest → Closes rest' → Inside rest rest'
  | ended {rest rest' : List Token} : Over rest → Over rest' → Inside rest rest'
  | cons {t : Token} {l : Lexeme} {rest rest' : List Token} : t.Sound Keywords.mysql →
      Renders t l → Inside rest rest' → Inside (t :: rest) (l.token :: rest')

namespace Inside

variable {rest rest' : List Token}

theorem append {taken : List Token} {ls : List Lexeme} (h : Inside rest rest')
    (sound : ∀ t ∈ taken, t.Sound Keywords.mysql) (renders : List.Forall₂ Renders taken ls) :
    Inside (taken ++ rest) (tokensOf ls ++ rest') := by
  induction renders with
  | nil => exact h
  | cons first _ ih =>
    obtain ⟨here, later⟩ := List.forall_mem_cons.1 sound
    exact .cons here first (ih later)

theorem accept_of_closes {rest : List Token} (h : Closes rest) (terminal : Terminal) :
    ∃ t ts, rest = t :: ts ∧ terminal.accept Keywords.mysql t =
      if terminal = .literal ")" then some ")" else none := by
  obtain ⟨t, ts, rfl, kind, text⟩ := h
  refine ⟨t, ts, rfl, ?_⟩
  cases terminal with
  | literal literal =>
    by_cases same : literal = ")"
    · simp [Terminal.accept, Token.spells, Token.isWord, kind, text, same]
    · have other : ¬ ")" = literal := fun h => same h.symm
      simp [Terminal.accept, Token.spells, Token.isWord, kind, text, same, other]
  | _ => simp [Terminal.accept, kind]

theorem avoids_of_over {rest : List Token} (h : Over rest) {terminal : Terminal}
    (other : terminal ≠ .literal ";") : Avoids [terminal] rest := by
  intro terminal' mem t ht
  obtain rfl : terminal' = terminal := by simpa using mem
  obtain ⟨kind, text⟩ := h t ht
  cases terminal' with
  | literal literal =>
    have other : ¬ ";" = literal := by
      rintro rfl
      exact other rfl
    simp [Terminal.accept, Token.spells, Token.isWord, kind, text, other]
  | _ => simp [Terminal.accept, kind]

/-- Where a steady terminal does not take the token that was read, it does not take the one that
is written. -/
theorem avoids {terminal : Terminal} (h : Inside rest rest') (steady : terminal.steady = true)
    (other : terminal ≠ .literal ";") (avoids : Avoids [terminal] rest) :
    Avoids [terminal] rest' := by
  cases h with
  | closed before after =>
    obtain ⟨t, ts, rfl, accept⟩ := accept_of_closes before terminal
    obtain ⟨t', ts', rfl, accept'⟩ := accept_of_closes after terminal
    have refused := avoids terminal (by simp) t (by simp)
    intro terminal' mem first hfirst
    obtain rfl : terminal' = terminal := by simpa using mem
    obtain rfl : t' = first := by simpa using hfirst
    rw [accept', ← accept, refused]
  | ended _ after => exact avoids_of_over after other
  | @cons t l _ _ sound renders _ =>
    intro terminal' mem first hfirst
    obtain rfl : terminal' = terminal := by simpa using mem
    obtain rfl : l.token = first := by simpa using hfirst
    exact renders.refuses steady (avoids terminal' (by simp) t (by simp))

end Inside
end TableDdl
