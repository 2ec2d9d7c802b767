import TableDdl.Grammar.Rule
import TableDdl.Layout.Piece
import TableDdl.Proofs.Number.ReadBack
import TableDdl.Proofs.Text.Words
import TableDdl.Proofs.Token.Scanned

/-!
# Tokens of lexemes

The token that a lexeme is written as, and which terminals accept it. A bare name is no keyword,
so a written name is never taken for a word of the rules.
-/
namespace TableDdl

open Text

/-- A written word that names what the rules name stands for a word of the language. -/
def Lexeme.kind : Lexeme → Kind
  | .word text => Scan.wordKind Keywords.mysql text.toList
  | .symbol _ => .operator
  | .name _ => .identifier
  | .string _ => .string
  | .integer _ => .number
  | .number _ => .number

/-- The token that the lexeme is written as; its place does not matter. -/
def Lexeme.token (l : Lexeme) : Token := ⟨l.kind, String.ofList l.text, .start⟩

/-- A lexeme whose text is one token: there are no escapes in names and strings. -/
def Lexeme.Writable : Lexeme → Prop
  | .word text => isPlainWord text = true
  | .symbol text => text.toList ∈ Scan.doubleOperators ∨
      ∃ c ∈ Scan.singleOperators, text.toList = [c]
  | .name text => text.toList ≠ [] ∧ '\x60' ∉ text.toList
  | .string content => ¬ ('\x27' ∈ content.toList ∧ '"' ∈ content.toList)
  | .integer _ => True
  | .number _ => True

instance (l : Lexeme) : Decidable l.Writable :=
  match l with
  | .word text => inferInstanceAs (Decidable (isPlainWord text = true))
  | .symbol text => inferInstanceAs (Decidable (text.toList ∈ Scan.doubleOperators ∨
      ∃ c ∈ Scan.singleOperators, text.toList = [c]))
  | .name text => inferInstanceAs (Decidable (text.toList ≠ [] ∧ '\x60' ∉ text.toList))
  | .string content =>
    inferInstanceAs (Decidable ¬ ('\x27' ∈ content.toList ∧ '"' ∈ content.toList))
  | .integer _ => .isTrue trivial
  | .number _ => .isTrue trivial

theorem head?_of_isPlainWord {text : String} (h : isPlainWord text = true) :
    text.toList.head? ≠ some '\x60' := by
  obtain ⟨c, cs, whole, start, -⟩ := isPlainWord_iff.1 h
  rw [whole, List.head?_cons]
  rintro ⟨rfl⟩
  revert start
  decide

theorem isWord_word {text : String} (plain : isPlainWord text = true) :
    (Lexeme.word text).token.isWord = true := by
  have bare := head?_of_isPlainWord plain
  simp only [Token.isWord, Lexeme.token, Lexeme.kind, Scan.wordKind, Lexeme.text]
  split <;> simp_all

namespace Terminal

variable {text literal : String}

theorem accept_literal_word (plain : isPlainWord text = true) :
    (Terminal.literal literal).accept Keywords.mysql (Lexeme.word text).token =
      if sameWord text literal then some literal else none := by
  simp only [accept, Token.spells, isWord_word plain, if_true]
  simp [Lexeme.token, Lexeme.text]

theorem accept_identifier_word (plain : isPlainWord text = true) :
    Terminal.identifier.accept Keywords.mysql (Lexeme.word text).token =
      if Keywords.mysql.isReserved text then none else some text := by
  simp only [accept, Lexeme.token, Lexeme.kind, Scan.wordKind, Lexeme.text, String.ofList_toList]
  by_cases keyword : Keywords.mysql.isKeyword text = true
  · simp [keyword]
  · simp [keyword, Keywords.isReserved_eq, unquote, head?_of_isPlainWord plain]

theorem accept_literal_symbol :
    (Terminal.literal literal).accept Keywords.mysql (Lexeme.symbol text).token =
      if text = literal then some literal else none := by
  simp [accept, Token.spells, Token.isWord, Lexeme.token, Lexeme.kind, Lexeme.text]

/-- A name is read as it is, with or without quotes. -/
theorem accept_identifier_name :
    Terminal.identifier.accept Keywords.mysql (Lexeme.name text).token = some text := by
  simp only [accept, Lexeme.token, Lexeme.kind, Lexeme.text, Layout.quoteName]
  split
  · rename_i bare
    have plain : isPlainWord text = true := by simp_all
    simp [unquote, head?_of_isPlainWord plain]
  · simp [unquote, inner]

/-- Words of the table are quoted where they are names, so no literal takes a name. -/
theorem accept_literal_name
    (own : Keywords.mysql.isKeyword literal = true ∨ isPlainWord literal = false) :
    (Terminal.literal literal).accept Keywords.mysql (Lexeme.name text).token = none := by
  simp only [accept, Token.spells, Token.isWord, Lexeme.token, Lexeme.kind, Lexeme.text,
    Layout.quoteName]
  split
  · rename_i bare
    have plain : isPlainWord text = true := by simp_all
    have different : sameWord text literal = false := by
      cases same : sameWord text literal with
      | false => rfl
      | true =>
        have keyword := isKeyword_congr same Keywords.mysql
        have word := isPlainWord_congr same
        simp_all
    simp [head?_of_isPlainWord plain, different]
  · simp

theorem accept_string_string {content : String} :
    Terminal.string.accept Keywords.mysql (Lexeme.string content).token = some content := by
  simp only [accept, Lexeme.token, Lexeme.kind, Lexeme.text, Layout.quoteString, if_true]
  split <;> simp [inner]

theorem accept_number_integer {n : Nat} :
    Terminal.number.accept Keywords.mysql (Lexeme.integer n).token =
      some (String.ofList (Number.digitsOf n)) := by
  simp [accept, Lexeme.token, Lexeme.kind, Lexeme.text]

theorem accept_number_number {x : Number.Binary64} :
    Terminal.number.accept Keywords.mysql (Lexeme.number x).token =
      some (String.ofList (Number.sqlFormat.write x)) := by
  simp [accept, Lexeme.token, Lexeme.kind, Lexeme.text]

end Terminal

/-- What terminals can tell of a lexeme. -/
inductive Shape
  | word (text : String)
  | symbol (text : String)
  | name
  | string
  | integer
  | number
deriving DecidableEq

def Lexeme.shape : Lexeme → Shape
  | .word text => .word text
  | .symbol text => .symbol text
  | .name _ => .name
  | .string _ => .string
  | .integer _ => .integer
  | .number _ => .number

/-- Whether no token of a lexeme of that shape is accepted. -/
def Terminal.refuses : Terminal → Shape → Bool
  | .literal text, .word w => !sameWord w text
  | .literal text, .symbol s => s != text
  | .literal text, .name => Keywords.mysql.isKeyword text || !isPlainWord text
  | .identifier, .word w => Keywords.mysql.isReserved w
  | .identifier, .name => false
  | .string, .string => false
  | .number, .integer => false
  | .number, .number => false
  | _, _ => true

theorem Terminal.accept_eq_none {t : Terminal} {l : Lexeme} (writable : l.Writable)
    (h : t.refuses l.shape = true) : t.accept Keywords.mysql l.token = none := by
  have kind_word (w : String) : (Lexeme.word w).kind ≠ .string ∧ (Lexeme.word w).kind ≠ .number := by
    simp only [Lexeme.kind, Scan.wordKind]
    split <;> simp
  cases l with
  | word w =>
    cases t with
    | literal text =>
      rw [accept_literal_word writable]
      simp_all [refuses, Lexeme.shape]
    | identifier =>
      rw [accept_identifier_word writable]
      simp_all [refuses, Lexeme.shape]
    | string => simp [accept, Lexeme.token, kind_word w]
    | number => simp [accept, Lexeme.token, kind_word w]
  | symbol s =>
    cases t with
    | literal text =>
      rw [accept_literal_symbol]
      simp_all [refuses, Lexeme.shape]
    | _ => simp [accept, Lexeme.token, Lexeme.kind]
  | name n =>
    cases t with
    | literal text => exact accept_literal_name (by simpa [refuses, Lexeme.shape] using h)
    | identifier => simp [refuses, Lexeme.shape] at h
    | _ => simp [accept, Lexeme.token, Lexeme.kind]
  | string s =>
    cases t with
    | string => simp [refuses, Lexeme.shape] at h
    | _ => simp [accept, Lexeme.token, Lexeme.kind, Token.spells, Token.isWord]
  | integer n =>
    cases t with
    | number => simp [refuses, Lexeme.shape] at h
    | _ => simp [accept, Lexeme.token, Lexeme.kind, Token.spells, Token.isWord]
  | number x =>
    cases t with
    | number => simp [refuses, Lexeme.shape] at h
    | _ => simp [accept, Lexeme.token, Lexeme.kind, Token.spells, Token.isWord]

end TableDdl
