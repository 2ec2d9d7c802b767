import TableDdl.Text.Bytes

/-!
# Positions in a text

A position counts the bytes of UTF-8 before it, and lines and columns from one. Columns count
characters; a line feed starts the next line.
-/
namespace TableDdl

structure Position where
  offset : Nat
  line : Nat
  column : Nat
deriving DecidableEq

namespace Position

def start : Position := ⟨0, 1, 1⟩

def next (p : Position) (c : Char) : Position :=
  if c = '\n' then ⟨p.offset + c.utf8Size, p.line + 1, 1⟩
  else ⟨p.offset + c.utf8Size, p.line, p.column + 1⟩

/-- The position just past `taken`, which starts at `p`. -/
def after (p : Position) (taken : List Char) : Position := taken.foldl next p

/-- The position just past the last character of a text. -/
def endOf (text : String) : Position := start.after text.toList

@[simp] theorem after_nil (p : Position) : p.after [] = p := rfl

theorem after_append (p : Position) (a b : List Char) : p.after (a ++ b) = (p.after a).after b := by
  simp [after, List.foldl_append]

theorem offset_after (p : Position) (cs : List Char) :
    (p.after cs).offset = p.offset + Text.byteLength cs := by
  induction cs generalizing p with
  | nil => rfl
  | cons c cs ih =>
    have first : (p.next c).offset = p.offset + c.utf8Size := by
      unfold next
      split <;> rfl
    have step : p.after (c :: cs) = (p.next c).after cs := rfl
    rw [step, ih, first, Text.byteLength_cons, Nat.add_assoc]

instance : ToString Position where
  toString p := toString p.line ++ ":" ++ toString p.column

end Position
end TableDdl
