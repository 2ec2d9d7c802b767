import TableDdl.Proofs.Expression.Renamed
import TableDdl.Proofs.Grammar.Locality

/-!
# Statements with other names

A statement with every name in it replaced: those of tables, schemas, columns, keys, constraints,
partitions, character sets, collations, engines, tablespaces and parsers, and those in its
expressions.
-/
namespace TableDdl

variable (f : String → String)

def TableName.renamed (t : TableName) : TableName := ⟨t.schema.map f, f t.name⟩

def TextType.renamed (t : TextType) : TextType :=
  { t with charset := t.charset.map f, collation := t.collation.map f }

def ChoiceType.renamed (t : ChoiceType) : ChoiceType :=
  { t with charset := t.charset.map f, collation := t.collation.map f }

def DataType.renamed : DataType → DataType
  | .text type => .text (type.renamed f)
  | .choice type => .choice (type.renamed f)
  | type => type

def KeyPartTarget.renamed : KeyPartTarget → KeyPartTarget
  | .column name length => .column (f name) length
  | .expression e => .expression (e.renamed f)

def KeyPart.renamed (p : KeyPart) : KeyPart := { p with target := p.target.renamed f }

def IndexOption.renamed : IndexOption → IndexOption
  | .withParser name => .withParser (f name)
  | option => option

def Constraint.renamed (c : Constraint) : Constraint := ⟨c.name.map f⟩

def Reference.renamed (r : Reference) : Reference :=
  { r with table := r.table.renamed f, parts := r.parts.map (KeyPart.renamed f) }

def Check.renamed (c : Check) : Check :=
  { c with constraint := c.constraint.map (Constraint.renamed f), condition := c.condition.renamed f }

def KeyDefinition.renamed : KeyDefinition → KeyDefinition
  | .index name type parts options =>
    .index (name.map f) type (parts.map (KeyPart.renamed f)) (options.map (IndexOption.renamed f))
  | .primaryKey constraint type parts options =>
    .primaryKey (constraint.map (Constraint.renamed f)) type (parts.map (KeyPart.renamed f))
      (options.map (IndexOption.renamed f))
  | .uniqueKey constraint name type parts options =>
    .uniqueKey (constraint.map (Constraint.renamed f)) (name.map f) type
      (parts.map (KeyPart.renamed f)) (options.map (IndexOption.renamed f))
  | .foreignKey constraint name columns reference =>
    .foreignKey (constraint.map (Constraint.renamed f)) (name.map f) (columns.map f)
      (reference.renamed f)
  | .specialIndex kind name parts options =>
    .specialIndex kind (name.map f) (parts.map (KeyPart.renamed f))
      (options.map (IndexOption.renamed f))
  | .check c => .check (c.renamed f)

def DefaultValue.renamed : DefaultValue → DefaultValue
  | .array items => .array (items.map (Expression.renamed f))
  | value => value

def PlainAttributes.renamed (a : PlainAttributes) : PlainAttributes :=
  { a with
    default := a.default.map (DefaultValue.renamed f)
    collation := a.collation.map f
    reference := a.reference.map (Reference.renamed f)
    check := a.check.map (Check.renamed f) }

def GeneratedAttributes.renamed (a : GeneratedAttributes) : GeneratedAttributes :=
  { a with
    expression := a.expression.renamed f
    reference := a.reference.map (Reference.renamed f)
    check := a.check.map (Check.renamed f) }

def Column.renamed : Column → Column
  | .plain name type attributes => .plain (f name) (type.renamed f) (attributes.renamed f)
  | .generated name type collation attributes =>
    .generated (f name) (type.renamed f) (collation.map f) (attributes.renamed f)

def HashPartition.renamed (p : HashPartition) : HashPartition :=
  { p with expression := p.expression.renamed f }

def KeyPartition.renamed (p : KeyPartition) : KeyPartition := { p with columns := p.columns.map f }

def PartitionBy.renamed : PartitionBy → PartitionBy
  | .expression e => .expression (e.renamed f)
  | .columns names => .columns (names.map f)

def PartitionKind.renamed : PartitionKind → PartitionKind
  | .hash p => .hash (p.renamed f)
  | .key p => .key (p.renamed f)
  | .range basis => .range (basis.renamed f)
  | .list basis => .list (basis.renamed f)

def SubpartitionKind.renamed : SubpartitionKind → SubpartitionKind
  | .hash p => .hash (p.renamed f)
  | .key p => .key (p.renamed f)

def PartitionValue.renamed : PartitionValue → PartitionValue
  | .maxValue => .maxValue
  | .expression e => .expression (e.renamed f)

def LessThan.renamed : LessThan → LessThan
  | .maxValue => .maxValue
  | .expression e => .expression (e.renamed f)
  | .values vs => .values (vs.map (PartitionValue.renamed f))

def PartitionValues.renamed : PartitionValues → PartitionValues
  | .lessThan bound => .lessThan (bound.renamed f)
  | .among items => .among (items.map (Expression.renamed f))

def PartitionOption.renamed : PartitionOption → PartitionOption
  | .engine name => .engine (f name)
  | .tablespace name => .tablespace (f name)
  | option => option

def PartitionDefinition.renamed (p : PartitionDefinition) : PartitionDefinition where
  name := f p.name
  values := p.values.map (PartitionValues.renamed f)
  options := p.options.map (PartitionOption.renamed f)

def Partitioning.renamed (p : Partitioning) : Partitioning :=
  { p with
    kind := p.kind.renamed f
    subpartitionBy := p.subpartitionBy.map (SubpartitionKind.renamed f)
    definitions := p.definitions.map (PartitionDefinition.renamed f) }

def TableOption.renamed : TableOption → TableOption
  | .characterSet name => .characterSet (f name)
  | .collate name => .collate (f name)
  | .engine name => .engine (f name)
  | .tablespace name storage => .tablespace (f name) storage
  | .union tables => .union (tables.map f)
  | option => option

def Definition.renamed : Definition → Definition
  | .column c => .column (c.renamed f)
  | .key k => .key (k.renamed f)

def CreateTable.renamed (t : CreateTable) : CreateTable :=
  { t with
    name := t.name.renamed f
    definitions := t.definitions.map (Definition.renamed f)
    options := t.options.map (TableOption.renamed f)
    partitioning := t.partitioning.map (Partitioning.renamed f) }

def ColumnPosition.renamed : ColumnPosition → ColumnPosition
  | .first => .first
  | .after column => .after (f column)

def AlterColumnAction.renamed : AlterColumnAction → AlterColumnAction
  | .setDefault value => .setDefault (value.renamed f)
  | action => action

def AlterOption.renamed : AlterOption → AlterOption
  | .addColumn column position =>
    .addColumn (column.renamed f) (position.map (ColumnPosition.renamed f))
  | .addColumns columns => .addColumns (columns.map (Column.renamed f))
  | .addKey key => .addKey (key.renamed f)
  | .dropCheck name => .dropCheck (f name)
  | .alterCheck name enforced => .alterCheck (f name) enforced
  | .algorithm a => .algorithm a
  | .dropColumn name => .dropColumn (f name)
  | .dropIndex name => .dropIndex (f name)
  | .dropPrimaryKey => .dropPrimaryKey
  | .dropForeignKey name => .dropForeignKey (f name)
  | .alterColumn name action => .alterColumn (f name) (action.renamed f)
  | .alterIndex name visible => .alterIndex (f name) visible
  | .modifyColumn column position =>
    .modifyColumn (column.renamed f) (position.map (ColumnPosition.renamed f))
  | .changeColumn oldName column position =>
    .changeColumn (f oldName) (column.renamed f) (position.map (ColumnPosition.renamed f))
  | .renameColumn oldName newName => .renameColumn (f oldName) (f newName)
  | .renameIndex oldName newName => .renameIndex (f oldName) (f newName)
  | .renameTable name => .renameTable (name.renamed f)
  | .lock mode => .lock mode
  | .convertCharset charset collation => .convertCharset (f charset) (collation.map f)
  | .tableOption option => .tableOption (option.renamed f)

def PartitionNames.renamed : PartitionNames → PartitionNames
  | .all => .all
  | .names ns => .names (ns.map f)

def AlterPartitionOption.renamed : AlterPartitionOption → AlterPartitionOption
  | .partitionBy partitioning => .partitionBy (partitioning.renamed f)
  | .addPartition definitions => .addPartition (definitions.map (PartitionDefinition.renamed f))
  | .dropPartition names => .dropPartition (names.map f)
  | .maintain operation partitions => .maintain operation (partitions.renamed f)
  | .coalescePartition count => .coalescePartition count
  | .removePartitioning => .removePartitioning

def Alteration.renamed : Alteration → Alteration
  | .option o => .option (o.renamed f)
  | .partition o => .partition (o.renamed f)

def AlterTable.renamed (t : AlterTable) : AlterTable where
  name := t.name.renamed f
  options := t.options.map (AlterOption.renamed f)
  partitionOptions := t.partitionOptions.map (AlterPartitionOption.renamed f)

def Statement.renamed : Statement → Statement
  | .createTable table => .createTable (table.renamed f)
  | .alterTable table => .alterTable (table.renamed f)

/-- What is read at the entry point, with other names. -/
def EntryPoint.renamed {α : Type} : EntryPoint α → α → α
  | .statement => Statement.renamed f
  | .createTable => CreateTable.renamed f
  | .alterTable => AlterTable.renamed f
  | .expression => Expression.renamed f

end TableDdl
