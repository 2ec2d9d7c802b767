import TableDdl.Grammar.Rule
import TableDdl.Layout.Piece

/-!
# Spelled choices

Many attributes are a choice of a few values, each with a fixed spelling of one or more words.
The class gives the values in the order in which a rule tries them, and their spelling; from it
follow the rule that reads such a value and the layout that writes it.
-/
namespace TableDdl

class Spelled (α : Type) where
  first : α
  others : List α
  /-- The first word of the spelling. -/
  head : α → String
  /-- The words after it. -/
  tail : α → List String := fun _ => []
  /-- The name of the value in a dump. -/
  label : α → String

namespace Grammar

variable {N : Type → Type} {α : Type}

def spelling [Spelled α] (value : α) : Rule N α :=
  (phrase (Spelled.head value) (Spelled.tail value)).as value

/-- Any of the values, by its spelling. -/
def spelled [Spelled α] : Rule N α :=
  .oneOf (spelling Spelled.first) (Spelled.others.map spelling)

end Grammar

def Layout.spelled {α : Type} [Spelled α] (value : α) : Layout :=
  .words (Spelled.head value :: Spelled.tail value)

end TableDdl
