import TableDdl.Keyword.Table
import TableDdl.Number.Format

/-!
# Layouts

The written form of a statement before it becomes text: lexemes, with spaces between some of
them. Each lexeme is written as one token, so a layout is also the token list that the text is
meant to have. Names and string literals have no escapes: a name that holds a backquote and a
literal that holds both quotes have no written form that reads back.
-/
namespace TableDdl

namespace Layout

/-- A name stands bare where it is a plain word and no keyword of the default table. -/
def quoteName (name : String) : List Char :=
  if Text.isPlainWord name && !Keywords.mysql.isKeyword name then name.toList
  else '\x60' :: name.toList ++ ['\x60']

/-- Single quotes, unless the text holds one. -/
def quoteString (content : String) : List Char :=
  if content.toList.contains '\x27' then '"' :: content.toList ++ ['"']
  else '\x27' :: content.toList ++ ['\x27']

end Layout

inductive Lexeme
  /-- A word of the rules. -/
  | word (text : String)
  /-- An operator or a punctuation mark. -/
  | symbol (text : String)
  | name (text : String)
  | string (content : String)
  | integer (n : Nat)
  | number (x : Number.Binary64)
deriving DecidableEq

/-- Numbers in SQL have no exponent, and whole numbers no fraction. -/
def Number.sqlFormat : Number.Format where
  tie := .away
  marksWhole := false
  positional := none
  marksExponent := false

def Lexeme.text : Lexeme → List Char
  | .word text => text.toList
  | .symbol text => text.toList
  | .name text => Layout.quoteName text
  | .string content => Layout.quoteString content
  | .integer n => Number.digitsOf n
  | .number x => Number.sqlFormat.write x

inductive Piece
  | lexeme (l : Lexeme)
  | space
deriving DecidableEq

def Piece.text : Piece → List Char
  | .lexeme l => l.text
  | .space => [' ']

abbrev Layout := List Piece

namespace Layout

def text (l : Layout) : List Char := l.flatMap Piece.text

def write (l : Layout) : String := String.ofList l.text

def lexemes (l : Layout) : List Lexeme :=
  l.filterMap fun
    | .lexeme x => some x
    | .space => none

@[simp] theorem lexemes_append (a b : Layout) : lexemes (a ++ b) = lexemes a ++ lexemes b := by
  simp [lexemes]

def word (text : String) : Layout := [.lexeme (.word text)]

def symbol (text : String) : Layout := [.lexeme (.symbol text)]

def name (text : String) : Layout := [.lexeme (.name text)]

def string (content : String) : Layout := [.lexeme (.string content)]

def integer (n : Nat) : Layout := [.lexeme (.integer n)]

def number (x : Number.Binary64) : Layout := [.lexeme (.number x)]

def space : Layout := [.space]

/-- The parts with `separator` between them. -/
def joined (separator : Layout) : List Layout → Layout
  | [] => []
  | [l] => l
  | l :: m :: ls => l ++ separator ++ joined separator (m :: ls)

def words (texts : List String) : Layout := joined space (texts.map word)

def commaSeparated (items : List Layout) : Layout := joined (symbol "," ++ space) items

def parenthesized (l : Layout) : Layout := symbol "(" ++ l ++ symbol ")"

def names (texts : List String) : Layout := commaSeparated (texts.map name)

/-- Each part after a space. -/
def appended (parts : List Layout) : Layout := parts.flatMap (space ++ ·)

/-- A part after a space, where there is one. -/
def given {α : Type} (part : Option α) (layout : α → Layout) : Layout :=
  match part with
  | none => []
  | some x => space ++ layout x

/-- A part after a space, where it holds. -/
def onlyIf (holds : Bool) (part : Layout) : Layout := if holds then space ++ part else []

def boolean (b : Bool) : Layout := word (if b then "TRUE" else "FALSE")

end Layout
end TableDdl
