import TableDdl.Error
import TableDdl.Keyword.Words
import TableDdl.Text.Word

/-!
# Keyword tables

A table is a set of words in upper case, kept as an ascending list, so that two tables with the
same words are equal. A keyword that MySQL reserves cannot stand for a name without quotes; the
reserved words of a table are taken out of its words when it is built.
-/
namespace TableDdl

/-- Each word is below the next. -/
def ascends : List String → Bool
  | v :: w :: ws => decide (v < w) && ascends (w :: ws)
  | _ => true

theorem pairwise_of_ascends {ws : List String} (h : ascends ws = true) : ws.Pairwise (· < ·) := by
  induction ws with
  | nil => exact List.Pairwise.nil
  | cons v ws ih =>
    cases ws with
    | nil => simp
    | cons w ws =>
      simp only [ascends, Bool.and_eq_true, decide_eq_true_eq] at h
      have rest := ih h.2
      refine List.pairwise_cons.2 ⟨fun x hx => ?_, rest⟩
      rcases List.mem_cons.1 hx with rfl | hx
      · exact h.1
      · exact String.lt_trans h.1 ((List.pairwise_cons.1 rest).1 x hx)

structure Keywords where
  words : List String
  ascending : words.Pairwise (· < ·)
  reserved : List String
  reserved_eq : reserved = words.filter Keyword.reservedWords.contains
deriving DecidableEq

namespace Keywords

open Text

/-- The table of an ascending list of words. -/
def build (words : List String) (ascending : words.Pairwise (· < ·)) : Keywords :=
  ⟨words, ascending, words.filter Keyword.reservedWords.contains, rfl⟩

theorem mem_reserved {table : Keywords} {word : String} :
    word ∈ table.reserved ↔ word ∈ table.words ∧ word ∈ Keyword.reservedWords := by
  simp [table.reserved_eq]

def insertWord (word : String) : List String → List String
  | [] => [word]
  | w :: ws =>
    if word < w then word :: w :: ws
    else if word = w then w :: ws
    else w :: insertWord word ws

theorem mem_insertWord {x word : String} {ws : List String} :
    x ∈ insertWord word ws ↔ x = word ∨ x ∈ ws := by
  induction ws with
  | nil => simp [insertWord]
  | cons w ws ih =>
    simp only [insertWord]
    split
    · simp
    · split
      · simp_all
      · simp only [List.mem_cons, ih]
        grind

theorem pairwise_insertWord {word : String} {ws : List String} (h : ws.Pairwise (· < ·)) :
    (insertWord word ws).Pairwise (· < ·) := by
  induction ws with
  | nil => simp [insertWord]
  | cons w ws ih =>
    simp only [List.pairwise_cons] at h
    simp only [insertWord]
    split
    · rename_i below
      simp only [List.pairwise_cons, List.mem_cons, forall_eq_or_imp]
      exact ⟨⟨below, fun x hx => String.lt_trans below (h.1 x hx)⟩, h⟩
    · rename_i notBelow
      split
      · exact List.pairwise_cons.2 h
      · rename_i different
        have above : w < word := Classical.byContradiction fun notAbove =>
          different (String.le_antisymm (String.not_lt.mp notAbove) (String.not_lt.mp notBelow))
        refine List.pairwise_cons.2 ⟨fun x hx => ?_, ih h.2⟩
        rcases mem_insertWord.1 hx with rfl | hx
        · exact above
        · exact h.1 x hx

/-- The table with a word added; the word is taken as it is. -/
def insert (table : Keywords) (word : String) : Keywords :=
  build (insertWord word table.words) (pairwise_insertWord table.ascending)

@[simp] theorem mem_words_insert {table : Keywords} {x word : String} :
    x ∈ (table.insert word).words ↔ x = word ∨ x ∈ table.words := mem_insertWord

theorem mem_words_foldl_insert {table : Keywords} {x : String} {ws : List String} :
    x ∈ (ws.foldl insert table).words ↔ x ∈ table.words ∨ x ∈ ws := by
  induction ws generalizing table with
  | nil => simp
  | cons w ws ih =>
    simp only [List.foldl_cons, ih, mem_words_insert, List.mem_cons]
    grind

def empty : Keywords := build [] List.Pairwise.nil

/-- The words that the rules for tables use. The reserved ones are given beside them, so that a
look-up does not take them out again. -/
def mysql : Keywords where
  words := Keyword.ddlWords
  ascending := pairwise_of_ascends (by decide +kernel)
  reserved := Keyword.reservedDdlWords
  reserved_eq := by decide +kernel

/-- A word as it is kept: without blanks around it, and in upper case. -/
def normalize (word : String) : Except Error String :=
  let trimmed := String.ofList (trim word.toList)
  if isPlainWord trimmed then .ok (upper trimmed) else .error (.badKeyword trimmed)

/-- A copy of the table with `words` added, unless one of them is no plain word. -/
def extend (table : Keywords) (words : List String) : Except Error Keywords :=
  (words.mapM normalize).map fun kept => kept.foldl insert table

def ofWords (words : List String) : Except Error Keywords := empty.extend words

/-- The words of a file: a number sign hides the rest of its line, and blanks and commas
separate. -/
def wordsOfText (text : List Char) : List String :=
  (text.splitOnP (· == '\n')).flatMap fun line =>
    (((line.takeWhile (· != '#')).splitOnP fun c => isBlank c || c == ',').filter
      (!·.isEmpty)).map String.ofList

/-- The default table with the words of a file added. -/
def ofFile (content : Except FileFault ByteArray) : Except Error Keywords :=
  match content with
  | .error fault => .error (.file fault)
  | .ok bytes => match String.fromUTF8? bytes with
    | none => .error (.file .notText)
    | some text => mysql.extend (wordsOfText text.toList)

def isKeyword (table : Keywords) (word : String) : Bool := table.words.contains (upper word)

/-- A keyword that cannot be a name without quotes. -/
def isReserved (table : Keywords) (word : String) : Bool := table.reserved.contains (upper word)

theorem isReserved_eq (table : Keywords) (word : String) : table.isReserved word =
    (table.isKeyword word && Keyword.reservedWords.contains (upper word)) := by
  rw [Bool.eq_iff_iff]
  simp [isReserved, isKeyword, mem_reserved]

theorem isReserved_eq_false {table : Keywords} {word : String}
    (free : table.isKeyword word = false) : table.isReserved word = false := by
  rw [isReserved_eq, free, Bool.false_and]

def size (table : Keywords) : Nat := table.words.length

def isEmpty (table : Keywords) : Bool := table.words.isEmpty

end Keywords
end TableDdl
