import TableDdl.AlterTable
import TableDdl.Proofs.Expression.Heads

/-!
# Names in statements

The names that may come from string literals are those of engines, character sets, collations
and tablespaces. The other names that matter are the heads of references in expressions. Both
are listed in the order in which they are written.
-/
namespace TableDdl

/-- The character set and the collation of the type. -/
def DataType.looseNames : DataType → List String
  | .text t => t.charset.toList ++ t.collation.toList
  | .choice t => t.charset.toList ++ t.collation.toList
  | _ => []

def KeyPartTarget.heads : KeyPartTarget → List String
  | .column _ _ => []
  | .expression e => e.heads

def KeyPart.heads (p : KeyPart) : List String := p.target.heads

def Reference.heads (r : Reference) : List String := r.parts.flatMap KeyPart.heads

def Check.heads (c : Check) : List String := c.condition.heads

def DefaultValue.heads : DefaultValue → List String
  | .array items => items.flatMap Expression.heads
  | _ => []

def PlainAttributes.heads (a : PlainAttributes) : List String :=
  a.default.elim [] DefaultValue.heads ++ a.reference.elim [] Reference.heads
    ++ a.check.elim [] Check.heads

def GeneratedAttributes.heads (a : GeneratedAttributes) : List String :=
  a.expression.heads ++ a.reference.elim [] Reference.heads ++ a.check.elim [] Check.heads

def Column.looseNames : Column → List String
  | .plain _ type attributes => type.looseNames ++ attributes.collation.toList
  | .generated _ type collation _ => type.looseNames ++ collation.toList

def Column.heads : Column → List String
  | .plain _ _ attributes => attributes.heads
  | .generated _ _ _ attributes => attributes.heads

def KeyDefinition.heads : KeyDefinition → List String
  | .index _ _ parts _ => parts.flatMap KeyPart.heads
  | .primaryKey _ _ parts _ => parts.flatMap KeyPart.heads
  | .uniqueKey _ _ _ parts _ => parts.flatMap KeyPart.heads
  | .foreignKey _ _ _ reference => reference.heads
  | .specialIndex _ _ parts _ => parts.flatMap KeyPart.heads
  | .check c => c.heads

def HashPartition.heads (p : HashPartition) : List String := p.expression.heads

def PartitionBy.heads : PartitionBy → List String
  | .expression e => e.heads
  | .columns _ => []

def PartitionKind.heads : PartitionKind → List String
  | .hash p => p.heads
  | .key _ => []
  | .range basis => basis.heads
  | .list basis => basis.heads

def SubpartitionKind.heads : SubpartitionKind → List String
  | .hash p => p.heads
  | .key _ => []

def PartitionValue.heads : PartitionValue → List String
  | .maxValue => []
  | .expression e => e.heads

def LessThan.heads : LessThan → List String
  | .maxValue => []
  | .expression e => e.heads
  | .values vs => vs.flatMap PartitionValue.heads

def PartitionValues.heads : PartitionValues → List String
  | .lessThan bound => bound.heads
  | .among items => items.flatMap Expression.heads

def PartitionOption.looseNames : PartitionOption → List String
  | .engine name => [name]
  | .tablespace name => [name]
  | _ => []

def PartitionDefinition.looseNames (p : PartitionDefinition) : List String :=
  p.options.flatMap PartitionOption.looseNames

def PartitionDefinition.heads (p : PartitionDefinition) : List String :=
  p.values.elim [] PartitionValues.heads

def Partitioning.looseNames (p : Partitioning) : List String :=
  p.definitions.flatMap PartitionDefinition.looseNames

def Partitioning.heads (p : Partitioning) : List String :=
  p.kind.heads ++ p.subpartitionBy.elim [] SubpartitionKind.heads
    ++ p.definitions.flatMap PartitionDefinition.heads

def TableOption.looseNames : TableOption → List String
  | .characterSet name => [name]
  | .collate name => [name]
  | .engine name => [name]
  | .tablespace name _ => [name]
  | _ => []

def Definition.looseNames : Definition → List String
  | .column c => c.looseNames
  | .key _ => []

def Definition.heads : Definition → List String
  | .column c => c.heads
  | .key k => k.heads

/-- The engine, character set, collation and tablespace names of the table. -/
def CreateTable.looseNames (t : CreateTable) : List String :=
  t.definitions.flatMap Definition.looseNames ++ t.options.flatMap TableOption.looseNames
    ++ t.partitioning.elim [] Partitioning.looseNames

/-- The first names of all references in the expressions of the table. -/
def CreateTable.heads (t : CreateTable) : List String :=
  t.definitions.flatMap Definition.heads ++ t.partitioning.elim [] Partitioning.heads

def AlterColumnAction.heads : AlterColumnAction → List String
  | .setDefault value => value.heads
  | _ => []

def AlterOption.looseNames : AlterOption → List String
  | .addColumn column _ => column.looseNames
  | .addColumns columns => columns.flatMap Column.looseNames
  | .modifyColumn column _ => column.looseNames
  | .changeColumn _ column _ => column.looseNames
  | .convertCharset charset collation => charset :: collation.toList
  | .tableOption option => option.looseNames
  | _ => []

def AlterOption.heads : AlterOption → List String
  | .addColumn column _ => column.heads
  | .addColumns columns => columns.flatMap Column.heads
  | .addKey key => key.heads
  | .alterColumn _ action => action.heads
  | .modifyColumn column _ => column.heads
  | .changeColumn _ column _ => column.heads
  | _ => []

def AlterPartitionOption.looseNames : AlterPartitionOption → List String
  | .partitionBy partitioning => partitioning.looseNames
  | .addPartition definitions => definitions.flatMap PartitionDefinition.looseNames
  | _ => []

def AlterPartitionOption.heads : AlterPartitionOption → List String
  | .partitionBy partitioning => partitioning.heads
  | .addPartition definitions => definitions.flatMap PartitionDefinition.heads
  | _ => []

/-- The engine, character set, collation and tablespace names of the alteration. -/
def AlterTable.looseNames (t : AlterTable) : List String :=
  t.options.flatMap AlterOption.looseNames
    ++ t.partitionOptions.flatMap AlterPartitionOption.looseNames

/-- The first names of all references in the expressions of the alteration. -/
def AlterTable.heads (t : AlterTable) : List String :=
  t.options.flatMap AlterOption.heads ++ t.partitionOptions.flatMap AlterPartitionOption.heads

end TableDdl
