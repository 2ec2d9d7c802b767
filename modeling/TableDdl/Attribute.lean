import TableDdl.Expression.Grammar

/-!
# Common attributes

Attributes that columns, indexes and tables share.
-/
namespace TableDdl

inductive StorageMedium
  | disk
  | memory
deriving DecidableEq

instance : Spelled StorageMedium where
  first := .disk
  others := [.memory]
  head
    | .disk => "DISK"
    | .memory => "MEMORY"
  label
    | .disk => "Disk"
    | .memory => "Memory"

namespace Grammar

/-- The name of an engine, a character set or a collation may stand in quotes. -/
def looseName : DdlRule String := identifier <|> string

def charsetKeyword : DdlRule String := literal "CHARACTER" *> literal "SET" <|> literal "CHARSET"

def collate : DdlRule String := literal "COLLATE" *> looseName

/-- Visible is true, invisible is false. -/
def visibility : DdlRule Bool := (literal "VISIBLE").as true <|> (literal "INVISIBLE").as false

end Grammar

namespace Layout

def collateClause (name : String) : Layout := word "COLLATE" ++ space ++ .name name

def visibility (visible : Bool) : Layout := word (if visible then "VISIBLE" else "INVISIBLE")

/-- An option and its value. -/
def setting (key : List String) (value : Layout) : Layout :=
  words key ++ space ++ symbol "=" ++ space ++ value

end Layout
end TableDdl
