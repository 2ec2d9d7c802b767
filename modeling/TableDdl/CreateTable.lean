import TableDdl.Column
import TableDdl.Partition
import TableDdl.TableOption

/-!
# Table definitions

A table has columns, keys and checks in the order in which they are written, then options, and
maybe a partitioning. Keys are tried before columns: the words that start a key are reserved in
the default table; in another table they may be names of columns. A definition is written on one
line, with options after spaces and not commas.
-/
namespace TableDdl

inductive Definition
  | column (column : Column)
  | key (key : KeyDefinition)
deriving DecidableEq

structure CreateTable where
  temporary : Bool
  ifNotExists : Bool
  name : TableName
  definitions : List Definition
  options : List TableOption
  partitioning : Option Partitioning
deriving DecidableEq

/-- The columns of the table, in order. -/
def CreateTable.columns (t : CreateTable) : List Column :=
  t.definitions.filterMap fun
    | .column c => some c
    | .key _ => none

namespace Grammar

def definition : DdlRule Definition :=
  Definition.key <$> keyDefinition <|> Definition.column <$> column

def createTable : DdlRule CreateTable :=
  CreateTable.mk <$> (literal "CREATE" *> (literal "TEMPORARY").flag)
    <*> (literal "TABLE" *> (literal "IF" *> literal "NOT" *> literal "EXISTS").flag)
    <*> tableName
    <*> parenthesized (commaList0 definition)
    <*> tableOptions
    <*> (literal "PARTITION" *> literal "BY" *> partitioning).optional

end Grammar

section Layout

open Layout

def Definition.layout : Definition → Layout
  | .column c => c.layout
  | .key k => k.layout

def CreateTable.layout (t : CreateTable) : Layout :=
  word "CREATE" ++ onlyIf t.temporary (word "TEMPORARY") ++ space ++ word "TABLE"
    ++ onlyIf t.ifNotExists (words ["IF", "NOT", "EXISTS"]) ++ space ++ t.name.layout ++ space
    ++ parenthesized (commaSeparated (t.definitions.map Definition.layout))
    ++ appended (t.options.map TableOption.layout)
    ++ given t.partitioning fun p => words ["PARTITION", "BY"] ++ space ++ p.layout

end Layout

section Dump

open Datum

def Definition.datum : Definition → Datum
  | .column c => .wrapped "Column" c.datum
  | .key k => .wrapped k.label k.content

def CreateTable.datum (t : CreateTable) : Datum :=
  .record "CreateTable" [
    ("temporary", .boolean t.temporary),
    ("if_not_exists", .boolean t.ifNotExists),
    ("name", t.name.datum),
    ("definitions", array Definition.datum t.definitions),
    ("table_options", array TableOption.datum t.options),
    ("partition_options", option Partitioning.datum t.partitioning)]

end Dump

end TableDdl
