import TableDdl.Dump.Datum
import TableDdl.Expression.Grammar

/-!
# Table names

A table's name, with or without that of its schema.
-/
namespace TableDdl

structure TableName where
  schema : Option String
  name : String
deriving DecidableEq

namespace TableName

/-- The name after a first name, which is the schema where a second follows. -/
def ofParts (first : String) : Option String → TableName
  | none => ⟨none, first⟩
  | some second => ⟨some first, second⟩

def layout (t : TableName) : Layout :=
  match t.schema with
  | none => .name t.name
  | some schema => .name schema ++ .symbol "." ++ .name t.name

def datum (t : TableName) : Datum :=
  .record "TableName" [("schema", .option .text t.schema), ("name", .text t.name)]

end TableName

def Grammar.tableName : DdlRule TableName :=
  TableName.ofParts <$> identifier <*> (literal "." *> identifier).optional

end TableDdl
