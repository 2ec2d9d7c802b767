import TableDdl.Keyword.Table

/-!
# Tokens

A token is a classified piece of the input with the place where it starts. Its text is the exact
text of the input, quotes included.
-/
namespace TableDdl

inductive Kind
  | keyword
  | identifier
  | number
  | string
  | operator
deriving DecidableEq

structure Token where
  kind : Kind
  text : String
  position : Position
deriving DecidableEq

namespace Token

open Text

/-- A keyword, or a name without quotes. -/
def isWord (t : Token) : Bool :=
  match t.kind with
  | .keyword => true
  | .identifier => t.text.toList.head? != some '\x60'
  | _ => false

/-- Whether the token stands for a word or operator of the rules; letter case counts for
operators only. -/
def spells (t : Token) (literal : String) : Bool :=
  if t.isWord then sameWord t.text literal else t.kind == .operator && t.text == literal

/-- Reserved words that are values of their own. -/
def valueWords : List String :=
  ["TRUE", "FALSE", "NULL", "CURRENT_TIMESTAMP", "LOCALTIME", "LOCALTIMESTAMP"]

/-- Whether an operand can end at this token. A sign right after it is an operator and no part
of a number. A keyword that is not reserved may be a column. -/
def endsOperand (keywords : Keywords) (t : Token) : Bool :=
  match t.kind with
  | .identifier => true
  | .number => true
  | .string => true
  | .keyword => !keywords.isReserved t.text || valueWords.any (sameWord t.text)
  | .operator => t.text == ")"

end Token
end TableDdl
