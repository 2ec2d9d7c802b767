import TableDdl.AlterTable
import TableDdl.Parser

/-!
# Statements

A statement defines a table or alters one, and is read, written and kept as data as the
definition or alteration that it is. The parser has four entry points: a statement of either
kind, a table definition, a table alteration, and an expression by itself.
-/
namespace TableDdl

inductive Statement
  | createTable (table : CreateTable)
  | alterTable (table : AlterTable)
deriving DecidableEq

def Statement.layout : Statement → Layout
  | .createTable t => t.layout
  | .alterTable t => t.layout

/-- The statement as SQL, without a semicolon. -/
def Statement.sql (s : Statement) : String := s.layout.write

def Statement.datum : Statement → Datum
  | .createTable t => .wrapped "CreateTable" t.datum
  | .alterTable t => .wrapped "AlterTable" t.datum

def Grammar.statement : DdlRule Statement :=
  Statement.createTable <$> createTable <|> Statement.alterTable <$> alterTable

def Statement.parse (keywords : Keywords) (text : String) : Except Error Statement :=
  Parser.parse keywords Grammar.statement text

def CreateTable.parse (keywords : Keywords) (text : String) : Except Error CreateTable :=
  Parser.parse keywords Grammar.createTable text

def AlterTable.parse (keywords : Keywords) (text : String) : Except Error AlterTable :=
  Parser.parse keywords Grammar.alterTable text

def Expression.parse (keywords : Keywords) (text : String) : Except Error Expression :=
  Parser.parse keywords Grammar.expression text

end TableDdl
