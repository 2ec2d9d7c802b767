import TableDdl.Attribute
import TableDdl.Expression.Dump
import TableDdl.Expression.Equality
import TableDdl.Expression.Layout

/-!
# Partitioning

How the rows of a table are divided: by a hash, by a key, or by ranges or lists of values, and
the partitions that are named. The kind comes first; the number of partitions, the subpartitions
and the named partitions follow in a fixed order, and each may be absent. As data, kinds and
bounds are variants; a partition and the whole are records.
-/
namespace TableDdl

structure HashPartition where
  linear : Bool
  expression : Expression
deriving DecidableEq

structure KeyPartition where
  linear : Bool
  algorithm : Option UInt32
  columns : List String
deriving DecidableEq

/-- What ranges and lists are compared with. -/
inductive PartitionBy
  | expression (e : Expression)
  | columns (names : List String)
deriving DecidableEq

inductive PartitionKind
  | hash (p : HashPartition)
  | key (p : KeyPartition)
  | range (basis : PartitionBy)
  | list (basis : PartitionBy)
deriving DecidableEq

inductive SubpartitionKind
  | hash (p : HashPartition)
  | key (p : KeyPartition)
deriving DecidableEq

inductive PartitionValue
  | maxValue
  | expression (e : Expression)
deriving DecidableEq

/-- The upper end of a range partition. -/
inductive LessThan
  | maxValue
  /-- One expression in parentheses. -/
  | expression (e : Expression)
  /-- Any other list in parentheses. -/
  | values (values : List PartitionValue)
deriving DecidableEq

inductive PartitionValues
  | lessThan (bound : LessThan)
  | among (items : List Expression)
deriving DecidableEq

inductive PartitionOption
  | engine (name : String)
  | comment (text : String)
  | dataDirectory (text : String)
  | indexDirectory (text : String)
  | maxRows (n : UInt64)
  | minRows (n : UInt64)
  | tablespace (name : String)
deriving DecidableEq

structure PartitionDefinition where
  name : String
  values : Option PartitionValues
  options : List PartitionOption
deriving DecidableEq

structure Partitioning where
  kind : PartitionKind
  partitions : Option UInt32
  subpartitionBy : Option SubpartitionKind
  subpartitions : Option UInt32
  definitions : List PartitionDefinition
deriving DecidableEq

/-- A list of one expression is the bound of a plain range; other lists bound ranges of columns. -/
def LessThan.ofList : List PartitionValue → LessThan
  | [.expression e] => .expression e
  | vs => .values vs

namespace Grammar

def linear : DdlRule Bool := (literal "LINEAR").flag

def hashPartition : DdlRule HashPartition :=
  HashPartition.mk <$> linear <*> (literal "HASH" *> parenthesized expression)

def keyPartition : DdlRule KeyPartition :=
  KeyPartition.mk <$> linear
    <*> (literal "KEY" *> (setting (literal "ALGORITHM") integer).optional)
    <*> parenthesized (commaList0 identifier)

def partitionBy : DdlRule PartitionBy :=
  PartitionBy.expression <$> parenthesized expression
    <|> PartitionBy.columns <$> (literal "COLUMNS" *> parenthesized (commaList identifier))

def partitionKind : DdlRule PartitionKind :=
  .oneOf (PartitionKind.hash <$> hashPartition) [
    PartitionKind.key <$> keyPartition,
    PartitionKind.range <$> (literal "RANGE" *> partitionBy),
    PartitionKind.list <$> (literal "LIST" *> partitionBy)]

def subpartitionKind : DdlRule SubpartitionKind :=
  SubpartitionKind.hash <$> hashPartition <|> SubpartitionKind.key <$> keyPartition

def partitionValue : DdlRule PartitionValue :=
  (literal "MAXVALUE").as .maxValue <|> PartitionValue.expression <$> expression

def lessThan : DdlRule LessThan :=
  (literal "MAXVALUE").as .maxValue
    <|> LessThan.ofList <$> parenthesized (commaList partitionValue)

def partitionValues : DdlRule PartitionValues :=
  literal "VALUES" *>
    (PartitionValues.lessThan <$> (literal "LESS" *> literal "THAN" *> lessThan)
      <|> PartitionValues.among <$> (literal "IN" *> parenthesized (commaList expression)))

def partitionOption : DdlRule PartitionOption :=
  .oneOf (PartitionOption.engine
      <$> ((literal "STORAGE").optional *> setting (literal "ENGINE") looseName)) [
    PartitionOption.comment <$> setting (literal "COMMENT") string,
    PartitionOption.dataDirectory <$> setting (literal "DATA" *> literal "DIRECTORY") string,
    PartitionOption.indexDirectory <$> setting (literal "INDEX" *> literal "DIRECTORY") string,
    PartitionOption.maxRows <$> setting (literal "MAX_ROWS") long,
    PartitionOption.minRows <$> setting (literal "MIN_ROWS") long,
    PartitionOption.tablespace <$> setting (literal "TABLESPACE") looseName]

def partitionDefinition : DdlRule PartitionDefinition :=
  PartitionDefinition.mk <$> (literal "PARTITION" *> identifier)
    <*> partitionValues.optional
    <*> partitionOption.many

/-- What follows `PARTITION BY`. -/
def partitioning : DdlRule Partitioning :=
  Partitioning.mk <$> partitionKind
    <*> (literal "PARTITIONS" *> integer).optional
    <*> (literal "SUBPARTITION" *> literal "BY" *> subpartitionKind).optional
    <*> (literal "SUBPARTITIONS" *> integer).optional
    <*> (·.getD []) <$> (parenthesized (commaList partitionDefinition)).optional

end Grammar

section Layout

open Layout

def HashPartition.layout (p : HashPartition) : Layout :=
  (if p.linear then word "LINEAR" ++ space else []) ++ word "HASH" ++ space
    ++ parenthesized p.expression.layout

def KeyPartition.layout (p : KeyPartition) : Layout :=
  (if p.linear then word "LINEAR" ++ space else []) ++ word "KEY"
    ++ given p.algorithm (fun n => setting ["ALGORITHM"] (integer n.toNat))
    ++ space ++ parenthesized (names p.columns)

def PartitionBy.layout : PartitionBy → Layout
  | .expression e => parenthesized e.layout
  | .columns cs => word "COLUMNS" ++ space ++ parenthesized (names cs)

def PartitionKind.layout : PartitionKind → Layout
  | .hash p => p.layout
  | .key p => p.layout
  | .range basis => word "RANGE" ++ space ++ basis.layout
  | .list basis => word "LIST" ++ space ++ basis.layout

def SubpartitionKind.layout : SubpartitionKind → Layout
  | .hash p => p.layout
  | .key p => p.layout

def PartitionValue.layout : PartitionValue → Layout
  | .maxValue => word "MAXVALUE"
  | .expression e => e.layout

def LessThan.layout : LessThan → Layout
  | .maxValue => word "MAXVALUE"
  | .expression e => parenthesized e.layout
  | .values vs => parenthesized (commaSeparated (vs.map PartitionValue.layout))

def PartitionValues.layout : PartitionValues → Layout
  | .lessThan bound => words ["VALUES", "LESS", "THAN"] ++ space ++ bound.layout
  | .among items =>
    words ["VALUES", "IN"] ++ space
      ++ parenthesized (commaSeparated (items.map Expression.layout))

def PartitionOption.layout : PartitionOption → Layout
  | .engine n => setting ["ENGINE"] (name n)
  | .comment t => setting ["COMMENT"] (string t)
  | .dataDirectory t => setting ["DATA", "DIRECTORY"] (string t)
  | .indexDirectory t => setting ["INDEX", "DIRECTORY"] (string t)
  | .maxRows n => setting ["MAX_ROWS"] (integer n.toNat)
  | .minRows n => setting ["MIN_ROWS"] (integer n.toNat)
  | .tablespace n => setting ["TABLESPACE"] (name n)

def PartitionDefinition.layout (p : PartitionDefinition) : Layout :=
  word "PARTITION" ++ space ++ .name p.name ++ given p.values PartitionValues.layout
    ++ appended (p.options.map PartitionOption.layout)

def PartitionDefinition.list (definitions : List PartitionDefinition) : Layout :=
  parenthesized (commaSeparated (definitions.map PartitionDefinition.layout))

def Partitioning.layout (p : Partitioning) : Layout :=
  p.kind.layout
    ++ given p.partitions (fun n => word "PARTITIONS" ++ space ++ integer n.toNat)
    ++ given p.subpartitionBy (fun s => words ["SUBPARTITION", "BY"] ++ space ++ s.layout)
    ++ given p.subpartitions (fun n => word "SUBPARTITIONS" ++ space ++ integer n.toNat)
    ++ onlyIf (!p.definitions.isEmpty) (PartitionDefinition.list p.definitions)

end Layout

section Dump

open Datum

def HashPartition.datum (p : HashPartition) : Datum :=
  .record "HashPartition" [("linear", .boolean p.linear), ("expression", p.expression.datum)]

def KeyPartition.datum (p : KeyPartition) : Datum :=
  .record "KeyPartition" [
    ("linear", .boolean p.linear),
    ("algorithm", option uint32 p.algorithm),
    ("columns", texts p.columns)]

def PartitionBy.datum : PartitionBy → Datum
  | .expression e => .wrapped "Expression" e.datum
  | .columns names => .wrapped "Columns" (texts names)

def PartitionKind.datum : PartitionKind → Datum
  | .hash p => .wrapped "Hash" p.datum
  | .key p => .wrapped "Key" p.datum
  | .range basis => .wrapped "Range" basis.datum
  | .list basis => .wrapped "List" basis.datum

def SubpartitionKind.datum : SubpartitionKind → Datum
  | .hash p => .wrapped "Hash" p.datum
  | .key p => .wrapped "Key" p.datum

def PartitionValue.datum : PartitionValue → Datum
  | .maxValue => .variant "MaxValue"
  | .expression e => .wrapped "Expression" e.datum

def LessThan.datum : LessThan → Datum
  | .maxValue => .variant "MaxValue"
  | .expression e => .wrapped "Expression" e.datum
  | .values vs => .wrapped "Values" (array PartitionValue.datum vs)

def PartitionValues.datum : PartitionValues → Datum
  | .lessThan bound => .wrapped "LessThan" bound.datum
  | .among items => .wrapped "In" (array Expression.datum items)

def PartitionOption.datum : PartitionOption → Datum
  | .engine n => .wrapped "Engine" (.text n)
  | .comment t => .wrapped "Comment" (.text t)
  | .dataDirectory t => .wrapped "DataDirectory" (.text t)
  | .indexDirectory t => .wrapped "IndexDirectory" (.text t)
  | .maxRows n => .wrapped "MaxRows" (uint64 n)
  | .minRows n => .wrapped "MinRows" (uint64 n)
  | .tablespace n => .wrapped "Tablespace" (.text n)

def PartitionDefinition.datum (p : PartitionDefinition) : Datum :=
  .record "PartitionDefinition" [
    ("name", .text p.name),
    ("values", option PartitionValues.datum p.values),
    ("options", array PartitionOption.datum p.options)]

def Partitioning.datum (p : Partitioning) : Datum :=
  .record "PartitionOptions" [
    ("kind", p.kind.datum),
    ("partitions", option uint32 p.partitions),
    ("subpartition_by", option SubpartitionKind.datum p.subpartitionBy),
    ("subpartitions", option uint32 p.subpartitions),
    ("definitions", array PartitionDefinition.datum p.definitions)]

end Dump

end TableDdl
