import TableDdl.Statement
import TableDdl.Text.Bytes

/-!
# Scripts

A script is a text with statements between semicolons. Only a semicolon that is a token divides:
one in a string, a quoted name or a comment does not. Each statement is read by itself, so that
a wrong one does not stop the others.
-/
namespace TableDdl

def Token.isSemicolon (t : Token) : Bool := t.kind == .operator && t.text == ";"

namespace Script

open Text

/-- The pieces of `text` from the offset `start`, given whether a token was seen since then and
the tokens that follow. -/
def piecesFrom (text : List Char) (start : Nat) (seen : Bool) : List Token → List String
  | [] => if seen then [String.ofList (trim (dropBytes start text))] else []
  | t :: ts =>
    if t.isSemicolon then
      let rest := piecesFrom text (t.position.offset + 1) false ts
      if seen then String.ofList (trim (sliceBytes start t.position.offset text)) :: rest else rest
    else piecesFrom text start true ts

/-- The statements of a script, without the blanks around them and without their semicolons.
What lies between semicolons and has no token is left out. -/
def split (sql : String) : Except Error (List String) :=
  (tokenize .mysql sql).map (piecesFrom sql.toList 0 false)

/-- Each statement's text with what it is read as. A script that has no tokens to split at is one
entry. -/
def parse (keywords : Keywords) (sql : String) : List (String × Except Error Statement) :=
  match split sql with
  | .ok pieces => pieces.map fun piece => (piece, Statement.parse keywords piece)
  | .error e => [(String.ofList (trim sql.toList), .error e)]

end Script
end TableDdl
