import TableDdl.CreateTable

/-!
# Table alterations

An alteration is a list of changes to a table and a list of changes to its partitions. In a
statement the two kinds may be mixed; the tree keeps the order within each. The parts are
separated by commas. Changes to the table are tried before changes to its partitions, as both
have parts that start with `ADD`, `DROP` and `CHECK`, and they are written before them. As data
an added key has a variant for each sort of key, and the other changes have one each.
-/
namespace TableDdl

inductive Algorithm
  | default
  | instant
  | inplace
  | copy
deriving DecidableEq

instance : Spelled Algorithm where
  first := .default
  others := [.instant, .inplace, .copy]
  head
    | .default => "DEFAULT"
    | .instant => "INSTANT"
    | .inplace => "INPLACE"
    | .copy => "COPY"
  label
    | .default => "Default"
    | .instant => "Instant"
    | .inplace => "Inplace"
    | .copy => "Copy"

inductive LockMode
  | default
  | none
  | shared
  | exclusive
deriving DecidableEq

instance : Spelled LockMode where
  first := .default
  others := [.none, .shared, .exclusive]
  head
    | .default => "DEFAULT"
    | .none => "NONE"
    | .shared => "SHARED"
    | .exclusive => "EXCLUSIVE"
  label
    | .default => "Default"
    | .none => "None"
    | .shared => "Shared"
    | .exclusive => "Exclusive"

/-- Maintenance of named partitions. -/
inductive PartitionOperation
  | truncate
  | analyze
  | check
  | optimize
  | rebuild
  | repair
deriving DecidableEq

instance : Spelled PartitionOperation where
  first := .truncate
  others := [.analyze, .check, .optimize, .rebuild, .repair]
  head
    | .truncate => "TRUNCATE"
    | .analyze => "ANALYZE"
    | .check => "CHECK"
    | .optimize => "OPTIMIZE"
    | .rebuild => "REBUILD"
    | .repair => "REPAIR"
  label
    | .truncate => "Truncate"
    | .analyze => "Analyze"
    | .check => "Check"
    | .optimize => "Optimize"
    | .rebuild => "Rebuild"
    | .repair => "Repair"

inductive ColumnPosition
  | first
  | after (column : String)
deriving DecidableEq

inductive AlterColumnAction
  | setDefault (value : DefaultValue)
  | dropDefault
  | setVisible (visible : Bool)
deriving DecidableEq

inductive AlterOption
  | addColumn (column : Column) (position : Option ColumnPosition)
  | addColumns (columns : List Column)
  | addKey (key : KeyDefinition)
  | dropCheck (name : String)
  | alterCheck (name : String) (enforced : Bool)
  | algorithm (algorithm : Algorithm)
  | dropColumn (name : String)
  | dropIndex (name : String)
  | dropPrimaryKey
  | dropForeignKey (name : String)
  | alterColumn (name : String) (action : AlterColumnAction)
  | alterIndex (name : String) (visible : Bool)
  | modifyColumn (column : Column) (position : Option ColumnPosition)
  | changeColumn (oldName : String) (column : Column) (position : Option ColumnPosition)
  | renameColumn (oldName newName : String)
  | renameIndex (oldName newName : String)
  | renameTable (name : TableName)
  | lock (mode : LockMode)
  | convertCharset (charset : String) (collation : Option String)
  | tableOption (option : TableOption)
deriving DecidableEq

inductive PartitionNames
  | all
  | names (names : List String)
deriving DecidableEq

inductive AlterPartitionOption
  | partitionBy (partitioning : Partitioning)
  | addPartition (definitions : List PartitionDefinition)
  | dropPartition (names : List String)
  | maintain (operation : PartitionOperation) (partitions : PartitionNames)
  | coalescePartition (count : UInt32)
  | removePartitioning
deriving DecidableEq

structure AlterTable where
  name : TableName
  options : List AlterOption
  partitionOptions : List AlterPartitionOption
deriving DecidableEq

/-- One part of an alteration, of either kind. -/
inductive Alteration
  | option (option : AlterOption)
  | partition (option : AlterPartitionOption)
deriving DecidableEq

/-- The alteration made of `parts`, in order. -/
def AlterTable.ofParts (name : TableName) (parts : List Alteration) : AlterTable where
  name := name
  options := parts.filterMap fun
    | .option o => some o
    | .partition _ => none
  partitionOptions := parts.filterMap fun
    | .option _ => none
    | .partition o => some o

namespace AlterTable

theorem options_ofParts_append (name : TableName) (a b : List Alteration) :
    (ofParts name (a ++ b)).options = (ofParts name a).options ++ (ofParts name b).options := by
  simp [ofParts]

theorem partitionOptions_ofParts_append (name : TableName) (a b : List Alteration) :
    (ofParts name (a ++ b)).partitionOptions
      = (ofParts name a).partitionOptions ++ (ofParts name b).partitionOptions := by
  simp [ofParts]

end AlterTable

namespace Grammar

def columnPosition : DdlRule ColumnPosition :=
  (literal "FIRST").as .first <|> ColumnPosition.after <$> (literal "AFTER" *> identifier)

def columnKeyword : DdlRule (Option String) := (literal "COLUMN").optional

def addColumn : DdlRule AlterOption :=
  columnKeyword *> (AlterOption.addColumns <$> parenthesized (commaList column)
    <|> AlterOption.addColumn <$> column <*> columnPosition.optional)

def add : DdlRule AlterOption :=
  literal "ADD" *> (AlterOption.addKey <$> keyDefinition <|> addColumn)

def checkOrConstraint : DdlRule String := literal "CHECK" <|> literal "CONSTRAINT"

def drop : DdlRule AlterOption :=
  literal "DROP" *> .oneOf (AlterOption.dropCheck <$> (checkOrConstraint *> identifier)) [
    (literal "PRIMARY" *> literal "KEY").as .dropPrimaryKey,
    AlterOption.dropForeignKey <$> (literal "FOREIGN" *> literal "KEY" *> identifier),
    AlterOption.dropIndex <$> (indexOrKey *> identifier),
    AlterOption.dropColumn <$> (columnKeyword *> identifier)]

def alterColumnAction : DdlRule AlterColumnAction :=
  .oneOf (AlterColumnAction.setDefault <$> (literal "SET" *> literal "DEFAULT" *> defaultValue)) [
    (literal "DROP" *> literal "DEFAULT").as .dropDefault,
    (literal "SET" *> literal "VISIBLE").as (.setVisible true),
    (literal "SET" *> literal "INVISIBLE").as (.setVisible false)]

def alter : DdlRule AlterOption :=
  literal "ALTER" *>
    (AlterOption.alterCheck <$> (checkOrConstraint *> identifier) <*> enforcement
      <|> AlterOption.alterIndex <$> (literal "INDEX" *> identifier) <*> visibility
      <|> AlterOption.alterColumn <$> (columnKeyword *> identifier) <*> alterColumnAction)

def modify : DdlRule AlterOption :=
  AlterOption.modifyColumn <$> (literal "MODIFY" *> columnKeyword *> column)
    <*> columnPosition.optional

def change : DdlRule AlterOption :=
  AlterOption.changeColumn <$> (literal "CHANGE" *> columnKeyword *> identifier)
    <*> column
    <*> columnPosition.optional

def rename : DdlRule AlterOption :=
  literal "RENAME" *>
    (AlterOption.renameColumn <$> (literal "COLUMN" *> identifier) <*> (literal "TO" *> identifier)
      <|> AlterOption.renameIndex <$> (indexOrKey *> identifier) <*> (literal "TO" *> identifier)
      <|> AlterOption.renameTable <$> ((literal "TO" <|> literal "AS").optional *> tableName))

def convertCharset : DdlRule AlterOption :=
  AlterOption.convertCharset
    <$> (literal "CONVERT" *> literal "TO" *> charsetKeyword *> looseName)
    <*> collate.optional

def alterOption : DdlRule AlterOption :=
  .oneOf add [
    drop,
    alter,
    modify,
    change,
    rename,
    AlterOption.algorithm <$> setting (literal "ALGORITHM") spelled,
    AlterOption.lock <$> setting (literal "LOCK") spelled,
    convertCharset,
    AlterOption.tableOption <$> tableOption]

def partitionNames : DdlRule PartitionNames :=
  (literal "ALL").as .all <|> PartitionNames.names <$> commaList identifier

def alterPartitionOption : DdlRule AlterPartitionOption :=
  .oneOf (AlterPartitionOption.partitionBy
      <$> (literal "PARTITION" *> literal "BY" *> partitioning)) [
    AlterPartitionOption.addPartition
      <$> (literal "ADD" *> literal "PARTITION" *> parenthesized (commaList partitionDefinition)),
    AlterPartitionOption.dropPartition
      <$> (literal "DROP" *> literal "PARTITION" *> commaList identifier),
    AlterPartitionOption.maintain <$> spelled <*> (literal "PARTITION" *> partitionNames),
    AlterPartitionOption.coalescePartition
      <$> (literal "COALESCE" *> literal "PARTITION" *> integer),
    (literal "REMOVE" *> literal "PARTITIONING").as .removePartitioning]

def alteration : DdlRule Alteration :=
  Alteration.option <$> alterOption <|> Alteration.partition <$> alterPartitionOption

def alterTable : DdlRule AlterTable :=
  AlterTable.ofParts <$> (literal "ALTER" *> literal "TABLE" *> tableName)
    <*> commaList0 alteration

end Grammar

section Layout

open Layout

def ColumnPosition.layout : ColumnPosition → Layout
  | .first => word "FIRST"
  | .after column => word "AFTER" ++ space ++ name column

def AlterColumnAction.layout : AlterColumnAction → Layout
  | .setDefault value => words ["SET", "DEFAULT"] ++ space ++ value.layout
  | .dropDefault => words ["DROP", "DEFAULT"]
  | .setVisible visible => word "SET" ++ space ++ visibility visible

def AlterOption.layout : AlterOption → Layout
  | .addColumn column position =>
    words ["ADD", "COLUMN"] ++ space ++ column.layout ++ given position ColumnPosition.layout
  | .addColumns columns =>
    words ["ADD", "COLUMN"] ++ space ++ parenthesized (commaSeparated (columns.map Column.layout))
  | .addKey key => word "ADD" ++ space ++ key.layout
  | .dropCheck n => words ["DROP", "CHECK"] ++ space ++ name n
  | .alterCheck n enforced =>
    words ["ALTER", "CHECK"] ++ space ++ name n ++ space ++ enforcementWords enforced
  | .algorithm a => setting ["ALGORITHM"] (spelled a)
  | .dropColumn n => words ["DROP", "COLUMN"] ++ space ++ name n
  | .dropIndex n => words ["DROP", "INDEX"] ++ space ++ name n
  | .dropPrimaryKey => words ["DROP", "PRIMARY", "KEY"]
  | .dropForeignKey n => words ["DROP", "FOREIGN", "KEY"] ++ space ++ name n
  | .alterColumn n action => words ["ALTER", "COLUMN"] ++ space ++ name n ++ space ++ action.layout
  | .alterIndex n visible =>
    words ["ALTER", "INDEX"] ++ space ++ name n ++ space ++ visibility visible
  | .modifyColumn column position =>
    words ["MODIFY", "COLUMN"] ++ space ++ column.layout ++ given position ColumnPosition.layout
  | .changeColumn oldName column position =>
    words ["CHANGE", "COLUMN"] ++ space ++ name oldName ++ space ++ column.layout
      ++ given position ColumnPosition.layout
  | .renameColumn oldName newName =>
    words ["RENAME", "COLUMN"] ++ space ++ name oldName ++ space ++ word "TO" ++ space
      ++ name newName
  | .renameIndex oldName newName =>
    words ["RENAME", "INDEX"] ++ space ++ name oldName ++ space ++ word "TO" ++ space
      ++ name newName
  | .renameTable table => words ["RENAME", "TO"] ++ space ++ table.layout
  | .lock mode => setting ["LOCK"] (spelled mode)
  | .convertCharset charset label =>
    words ["CONVERT", "TO", "CHARACTER", "SET"] ++ space ++ name charset
      ++ given label collateClause
  | .tableOption o => o.layout

def PartitionNames.layout : PartitionNames → Layout
  | .all => word "ALL"
  | .names ns => .names ns

def AlterPartitionOption.layout : AlterPartitionOption → Layout
  | .partitionBy p => words ["PARTITION", "BY"] ++ space ++ p.layout
  | .addPartition definitions =>
    words ["ADD", "PARTITION"] ++ space ++ PartitionDefinition.list definitions
  | .dropPartition ns => words ["DROP", "PARTITION"] ++ space ++ names ns
  | .maintain operation partitions =>
    spelled operation ++ space ++ word "PARTITION" ++ space ++ partitions.layout
  | .coalescePartition n => words ["COALESCE", "PARTITION"] ++ space ++ integer n.toNat
  | .removePartitioning => words ["REMOVE", "PARTITIONING"]

/-- The parts in the order in which they are written. -/
def AlterTable.parts (t : AlterTable) : List Layout :=
  t.options.map AlterOption.layout ++ t.partitionOptions.map AlterPartitionOption.layout

def AlterTable.layout (t : AlterTable) : Layout :=
  words ["ALTER", "TABLE"] ++ space ++ t.name.layout
    ++ onlyIf (!t.parts.isEmpty) (commaSeparated t.parts)

end Layout

section Dump

open Datum

def ColumnPosition.datum : ColumnPosition → Datum
  | .first => .variant "First"
  | .after column => .wrapped "After" (.text column)

def AlterColumnAction.datum : AlterColumnAction → Datum
  | .setDefault value => .wrapped "SetDefault" value.datum
  | .dropDefault => .variant "DropDefault"
  | .setVisible visible => .wrapped "SetVisible" (.boolean visible)

def AlterOption.datum : AlterOption → Datum
  | .addColumn column position =>
    .tagged "AddColumn" [
      ("column", column.datum), ("position", option ColumnPosition.datum position)]
  | .addColumns columns => .wrapped "AddColumns" (array Column.datum columns)
  | .addKey key => .wrapped ("Add" ++ key.label) key.content
  | .dropCheck name => .wrapped "DropCheckConstraint" (.text name)
  | .alterCheck name enforced =>
    .tagged "AlterCheckConstraint" [("name", .text name), ("enforced", .boolean enforced)]
  | .algorithm a => .wrapped "Algorithm" (spelled a)
  | .dropColumn name => .wrapped "DropColumn" (.text name)
  | .dropIndex name => .wrapped "DropIndex" (.text name)
  | .dropPrimaryKey => .variant "DropPrimaryKey"
  | .dropForeignKey name => .wrapped "DropForeignKey" (.text name)
  | .alterColumn name action =>
    .tagged "AlterColumn" [("name", .text name), ("action", action.datum)]
  | .alterIndex name visible =>
    .tagged "AlterIndex" [("name", .text name), ("visible", .boolean visible)]
  | .modifyColumn column position =>
    .tagged "ModifyColumn" [
      ("column", column.datum), ("position", option ColumnPosition.datum position)]
  | .changeColumn oldName column position =>
    .tagged "ChangeColumn" [
      ("old_name", .text oldName),
      ("column", column.datum),
      ("position", option ColumnPosition.datum position)]
  | .renameColumn oldName newName =>
    .tagged "RenameColumn" [("from", .text oldName), ("to", .text newName)]
  | .renameIndex oldName newName =>
    .tagged "RenameIndex" [("from", .text oldName), ("to", .text newName)]
  | .renameTable name => .wrapped "RenameTable" name.datum
  | .lock mode => .wrapped "Lock" (spelled mode)
  | .convertCharset charset collation =>
    .tagged "ConvertCharset" [
      ("charset", .text charset), ("collation", option .text collation)]
  | .tableOption o => .wrapped "TableOption" o.datum

def PartitionNames.datum : PartitionNames → Datum
  | .all => .variant "All"
  | .names ns => .wrapped "Names" (texts ns)

def AlterPartitionOption.datum : AlterPartitionOption → Datum
  | .partitionBy p => .wrapped "PartitionBy" p.datum
  | .addPartition definitions =>
    .wrapped "AddPartition" (array PartitionDefinition.datum definitions)
  | .dropPartition names => .wrapped "DropPartition" (texts names)
  | .maintain operation partitions =>
    .tagged "Maintain" [("operation", spelled operation), ("partitions", partitions.datum)]
  | .coalescePartition count => .wrapped "CoalescePartition" (uint32 count)
  | .removePartitioning => .variant "RemovePartitioning"

def AlterTable.datum (t : AlterTable) : Datum :=
  .record "AlterTable" [
    ("name", t.name.datum),
    ("alter_options", array AlterOption.datum t.options),
    ("partition_options", array AlterPartitionOption.datum t.partitionOptions)]

end Dump

end TableDdl
