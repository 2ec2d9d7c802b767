import TableDdl.Grammar.Engine
import TableDdl.Text.Printable

/-!
# Dumps on one line

A text for a reader, in quotes; and where a cursor stands, with the token that is next.
-/
namespace TableDdl

namespace Datum

def escapeChar (c : Char) : List Char :=
  match c with
  | '"' => ['\\', '"']
  | '\\' => ['\\', '\\']
  | '\n' => ['\\', 'n']
  | '\r' => ['\\', 'r']
  | '\t' => ['\\', 't']
  | '\x00' => ['\\', '0']
  | _ =>
    if Text.isPrintable c then [c]
    else ['\\', 'u', '\x7b'] ++ Nat.toDigits 16 c.toNat ++ ['\x7d']

/-- A text in double quotes, with what is not printable escaped. -/
def quoted (text : String) : String :=
  String.ofList ('"' :: text.toList.flatMap escapeChar ++ ['"'])

end Datum

def Cursor.dump (c : Cursor) : String :=
  let next := match c.rest with
    | [] => "None"
    | t :: _ => "Some(" ++ Datum.quoted t.text ++ ")"
  "Input \x7b pos: " ++ toString c.pos ++ ", next: " ++ next ++ " \x7d"

end TableDdl
