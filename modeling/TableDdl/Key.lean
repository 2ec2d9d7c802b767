import TableDdl.Attribute
import TableDdl.Expression.Dump
import TableDdl.Expression.Equality
import TableDdl.Expression.Layout
import TableDdl.TableName

/-!
# Keys, indexes and constraints

What a table definition holds besides columns: keys and indexes with their parts and options,
references to other tables, and checks. Keys and checks may carry a constraint name; the rule for
one of them gives a function of the constraint, so that it serves with and without the word
before it. Every index is written with the word `KEY`. As data a key is a variant around a
record; options and the targets of key parts are variants.
-/
namespace TableDdl

inductive IndexType
  | btree
  | hash
deriving DecidableEq

instance : Spelled IndexType where
  first := .btree
  others := [.hash]
  head
    | .btree => "BTREE"
    | .hash => "HASH"
  label
    | .btree => "BTree"
    | .hash => "Hash"

inductive SortOrder
  | ascending
  | descending
deriving DecidableEq

instance : Spelled SortOrder where
  first := .ascending
  others := [.descending]
  head
    | .ascending => "ASC"
    | .descending => "DESC"
  label
    | .ascending => "Asc"
    | .descending => "Desc"

inductive SpecialIndexKind
  | fulltext
  | spatial
deriving DecidableEq

instance : Spelled SpecialIndexKind where
  first := .fulltext
  others := [.spatial]
  head
    | .fulltext => "FULLTEXT"
    | .spatial => "SPATIAL"
  label
    | .fulltext => "Fulltext"
    | .spatial => "Spatial"

inductive MatchType
  | full
  | partly
  | simple
deriving DecidableEq

instance : Spelled MatchType where
  first := .full
  others := [.partly, .simple]
  head
    | .full => "FULL"
    | .partly => "PARTIAL"
    | .simple => "SIMPLE"
  label
    | .full => "Full"
    | .partly => "Partial"
    | .simple => "Simple"

inductive ReferentialAction
  | restrict
  | cascade
  | setNull
  | noAction
  | setDefault
deriving DecidableEq

instance : Spelled ReferentialAction where
  first := .restrict
  others := [.cascade, .setNull, .noAction, .setDefault]
  head
    | .restrict => "RESTRICT"
    | .cascade => "CASCADE"
    | .setNull => "SET"
    | .noAction => "NO"
    | .setDefault => "SET"
  tail
    | .setNull => ["NULL"]
    | .noAction => ["ACTION"]
    | .setDefault => ["DEFAULT"]
    | _ => []
  label
    | .restrict => "Restrict"
    | .cascade => "Cascade"
    | .setNull => "SetNull"
    | .noAction => "NoAction"
    | .setDefault => "SetDefault"

/-- What one part of a key is computed from. -/
inductive KeyPartTarget
  /-- A column, or the start of it of the given length. -/
  | column (name : String) (length : Option UInt32)
  | expression (e : Expression)
deriving DecidableEq

structure KeyPart where
  target : KeyPartTarget
  order : Option SortOrder
deriving DecidableEq

inductive IndexOption
  | keyBlockSize (n : UInt64)
  | indexType (type : IndexType)
  | withParser (name : String)
  | comment (text : String)
  | visible (b : Bool)
  | engineAttribute (text : String)
  | secondaryEngineAttribute (text : String)
deriving DecidableEq

/-- The word `CONSTRAINT` before a key or check, with or without a name. -/
structure Constraint where
  name : Option String
deriving DecidableEq

/-- The table and columns that a column or key refers to. -/
structure Reference where
  table : TableName
  parts : List KeyPart
  matchType : Option MatchType
  onDelete : Option ReferentialAction
  onUpdate : Option ReferentialAction
deriving DecidableEq

structure Check where
  constraint : Option Constraint
  condition : Expression
  /-- Absent where neither `ENFORCED` nor `NOT ENFORCED` is written. -/
  enforced : Option Bool
deriving DecidableEq

inductive KeyDefinition
  | index (name : Option String) (type : Option IndexType) (parts : List KeyPart)
    (options : List IndexOption)
  | primaryKey (constraint : Option Constraint) (type : Option IndexType) (parts : List KeyPart)
    (options : List IndexOption)
  | uniqueKey (constraint : Option Constraint) (name : Option String) (type : Option IndexType)
    (parts : List KeyPart) (options : List IndexOption)
  | foreignKey (constraint : Option Constraint) (name : Option String) (columns : List String)
    (reference : Reference)
  | specialIndex (kind : SpecialIndexKind) (name : Option String) (parts : List KeyPart)
    (options : List IndexOption)
  | check (check : Check)
deriving DecidableEq

namespace Reference

/-- An action for one event on the rows that are referred to. -/
inductive Trigger
  | onDelete (action : ReferentialAction)
  | onUpdate (action : ReferentialAction)

/-- Of several actions for one event the last counts. -/
def add (r : Reference) : Trigger → Reference
  | .onDelete action => { r with onDelete := some action }
  | .onUpdate action => { r with onUpdate := some action }

def ofParts (table : TableName) (parts : List KeyPart) (matchType : Option MatchType)
    (triggers : List Trigger) : Reference :=
  triggers.foldl add ⟨table, parts, matchType, none, none⟩

end Reference

namespace Grammar

def indexOrKey : DdlRule String := literal "INDEX" <|> literal "KEY"

def indexType : DdlRule IndexType := literal "USING" *> spelled

def indexOption : DdlRule IndexOption :=
  .oneOf (IndexOption.keyBlockSize <$> setting (literal "KEY_BLOCK_SIZE") long) [
    IndexOption.indexType <$> indexType,
    IndexOption.withParser <$> (literal "WITH" *> literal "PARSER" *> identifier),
    IndexOption.comment <$> (literal "COMMENT" *> string),
    IndexOption.visible <$> visibility,
    IndexOption.engineAttribute <$> setting (literal "ENGINE_ATTRIBUTE") string,
    IndexOption.secondaryEngineAttribute
      <$> setting (literal "SECONDARY_ENGINE_ATTRIBUTE") string]

def keyPart : DdlRule KeyPart :=
  KeyPart.mk
    <$> (KeyPartTarget.column <$> identifier <*> (parenthesized integer).optional
      <|> KeyPartTarget.expression <$> parenthesized expression)
    <*> spelled.optional

def keyParts : DdlRule (List KeyPart) := parenthesized (commaList keyPart)

def constraint : DdlRule Constraint :=
  Constraint.mk <$> (literal "CONSTRAINT" *> identifier.optional)

def trigger : DdlRule Reference.Trigger :=
  literal "ON" *> (Reference.Trigger.onDelete <$> (literal "DELETE" *> spelled)
    <|> Reference.Trigger.onUpdate <$> (literal "UPDATE" *> spelled))

def reference : DdlRule Reference :=
  Reference.ofParts <$> (literal "REFERENCES" *> tableName)
    <*> keyParts
    <*> (literal "MATCH" *> spelled).optional
    <*> trigger.many

def enforcement : DdlRule Bool :=
  (literal "ENFORCED").as true <|> (literal "NOT" *> literal "ENFORCED").as false

def checkBody : DdlRule (Option Constraint → Check) :=
  (fun condition enforced constraint => ⟨constraint, condition, enforced⟩)
    <$> (literal "CHECK" *> parenthesized expression) <*> enforcement.optional

def check : DdlRule Check := (fun c body => body c) <$> constraint.optional <*> checkBody

def primaryKey : DdlRule (Option Constraint → KeyDefinition) :=
  (fun type parts options constraint => .primaryKey constraint type parts options)
    <$> (literal "PRIMARY" *> literal "KEY" *> indexType.optional)
    <*> keyParts
    <*> indexOption.many

def uniqueKey : DdlRule (Option Constraint → KeyDefinition) :=
  (fun name type parts options constraint => .uniqueKey constraint name type parts options)
    <$> (literal "UNIQUE" *> indexOrKey.optional *> identifier.optional)
    <*> indexType.optional
    <*> keyParts
    <*> indexOption.many

def foreignKey : DdlRule (Option Constraint → KeyDefinition) :=
  (fun name columns reference constraint => .foreignKey constraint name columns reference)
    <$> (literal "FOREIGN" *> literal "KEY" *> identifier.optional)
    <*> parenthesized (commaList identifier)
    <*> reference

def specialIndex : DdlRule KeyDefinition :=
  KeyDefinition.specialIndex <$> spelled
    <*> (indexOrKey.optional *> identifier.optional)
    <*> keyParts
    <*> indexOption.many

def simpleIndex : DdlRule KeyDefinition :=
  KeyDefinition.index <$> (indexOrKey *> identifier.optional)
    <*> indexType.optional
    <*> keyParts
    <*> indexOption.many

/-- A key or check after the word `CONSTRAINT`. -/
def constrained : DdlRule KeyDefinition :=
  (fun c body => body (some c)) <$> constraint <*> .oneOf primaryKey [
    uniqueKey,
    foreignKey,
    (fun body c => .check (body c)) <$> checkBody]

def keyDefinition : DdlRule KeyDefinition :=
  .oneOf constrained [
    (· none) <$> primaryKey,
    (· none) <$> uniqueKey,
    (· none) <$> foreignKey,
    specialIndex,
    KeyDefinition.check <$> check,
    simpleIndex]

end Grammar

section Layout

open Layout

def KeyPartTarget.layout : KeyPartTarget → Layout
  | .column name none => .name name
  | .column name (some n) => .name name ++ parenthesized (integer n.toNat)
  | .expression e => parenthesized e.layout

def KeyPart.layout (p : KeyPart) : Layout := p.target.layout ++ given p.order spelled

def IndexOption.layout : IndexOption → Layout
  | .keyBlockSize n => setting ["KEY_BLOCK_SIZE"] (integer n.toNat)
  | .indexType type => word "USING" ++ space ++ spelled type
  | .withParser parser => words ["WITH", "PARSER"] ++ space ++ name parser
  | .comment text => word "COMMENT" ++ space ++ string text
  | .visible b => visibility b
  | .engineAttribute text => setting ["ENGINE_ATTRIBUTE"] (string text)
  | .secondaryEngineAttribute text => setting ["SECONDARY_ENGINE_ATTRIBUTE"] (string text)

def KeyPart.list (parts : List KeyPart) : Layout :=
  parenthesized (commaSeparated (parts.map KeyPart.layout))

/-- The constraint before a key or check, with a space after it. -/
def Constraint.layoutBefore : Option Constraint → Layout
  | none => []
  | some ⟨none⟩ => word "CONSTRAINT" ++ space
  | some ⟨some n⟩ => word "CONSTRAINT" ++ space ++ .name n ++ space

def Reference.layout (r : Reference) : Layout :=
  word "REFERENCES" ++ space ++ r.table.layout ++ space ++ KeyPart.list r.parts
    ++ given r.matchType (fun m => word "MATCH" ++ space ++ spelled m)
    ++ given r.onDelete (fun a => words ["ON", "DELETE"] ++ space ++ spelled a)
    ++ given r.onUpdate (fun a => words ["ON", "UPDATE"] ++ space ++ spelled a)

def enforcementWords (enforced : Bool) : Layout :=
  words (if enforced then ["ENFORCED"] else ["NOT", "ENFORCED"])

def Check.layout (c : Check) : Layout :=
  Constraint.layoutBefore c.constraint ++ word "CHECK" ++ space ++ parenthesized c.condition.layout
    ++ given c.enforced enforcementWords

namespace KeyDefinition

/-- What follows the words of an index or key. -/
def tail (label : Option String) (type : Option IndexType) (parts : List KeyPart)
    (options : List IndexOption) : Layout :=
  given label name ++ given type (fun t => word "USING" ++ space ++ spelled t)
    ++ space ++ KeyPart.list parts ++ appended (options.map IndexOption.layout)

def layout : KeyDefinition → Layout
  | .index name type parts options => word "KEY" ++ tail name type parts options
  | .primaryKey constraint type parts options =>
    Constraint.layoutBefore constraint ++ words ["PRIMARY", "KEY"] ++ tail none type parts options
  | .uniqueKey constraint name type parts options =>
    Constraint.layoutBefore constraint ++ words ["UNIQUE", "KEY"] ++ tail name type parts options
  | .foreignKey constraint label columns reference =>
    Constraint.layoutBefore constraint ++ words ["FOREIGN", "KEY"] ++ given label name ++ space
      ++ parenthesized (names columns) ++ space ++ reference.layout
  | .specialIndex kind name parts options =>
    spelled kind ++ space ++ word "KEY" ++ tail name none parts options
  | .check c => c.layout

end KeyDefinition

end Layout

section Dump

open Datum

def KeyPartTarget.datum : KeyPartTarget → Datum
  | .column name n => .tagged "Column" [("name", .text name), ("length", option uint32 n)]
  | .expression e => .wrapped "Expression" e.datum

def KeyPart.datum (p : KeyPart) : Datum :=
  .record "KeyPart" [("target", p.target.datum), ("order", option spelled p.order)]

def IndexOption.datum : IndexOption → Datum
  | .keyBlockSize n => .wrapped "KeyBlockSize" (uint64 n)
  | .indexType type => .wrapped "IndexType" (spelled type)
  | .withParser name => .wrapped "WithParser" (.text name)
  | .comment t => .wrapped "Comment" (.text t)
  | .visible b => .wrapped "Visible" (.boolean b)
  | .engineAttribute t => .wrapped "EngineAttribute" (.text t)
  | .secondaryEngineAttribute t => .wrapped "SecondaryEngineAttribute" (.text t)

def Constraint.datum (c : Constraint) : Datum :=
  .record "Constraint" [("name", option .text c.name)]

def Reference.datum (r : Reference) : Datum :=
  .record "ReferenceDefinition" [
    ("table", r.table.datum),
    ("key_parts", array KeyPart.datum r.parts),
    ("match_type", option spelled r.matchType),
    ("on_delete", option spelled r.onDelete),
    ("on_update", option spelled r.onUpdate)]

def Check.datum (c : Check) : Datum :=
  .record "CheckConstraintDefinition" [
    ("constraint", option Constraint.datum c.constraint),
    ("expression", c.condition.datum),
    ("enforced", option .boolean c.enforced)]

namespace KeyDefinition

/-- The name of the definition's sort. -/
def label : KeyDefinition → String
  | .index .. => "SimpleIndex"
  | .primaryKey .. => "PrimaryKey"
  | .uniqueKey .. => "UniqueKey"
  | .foreignKey .. => "ForeignKey"
  | .specialIndex .. => "SpecialIndex"
  | .check .. => "CheckConstraint"

/-- What is in the definition, without its sort. -/
def content : KeyDefinition → Datum
  | .index name type parts options =>
    .record "SimpleIndexDefinition" [
      ("name", option .text name),
      ("index_type", option spelled type),
      ("key_parts", array KeyPart.datum parts),
      ("options", array IndexOption.datum options)]
  | .primaryKey constraint type parts options =>
    .record "PrimaryKeyDefinition" [
      ("constraint", option Constraint.datum constraint),
      ("index_type", option spelled type),
      ("key_parts", array KeyPart.datum parts),
      ("options", array IndexOption.datum options)]
  | .uniqueKey constraint name type parts options =>
    .record "UniqueKeyDefinition" [
      ("constraint", option Constraint.datum constraint),
      ("name", option .text name),
      ("index_type", option spelled type),
      ("key_parts", array KeyPart.datum parts),
      ("options", array IndexOption.datum options)]
  | .foreignKey constraint name columns reference =>
    .record "ForeignKeyDefinition" [
      ("constraint", option Constraint.datum constraint),
      ("name", option .text name),
      ("columns", texts columns),
      ("reference", reference.datum)]
  | .specialIndex kind name parts options =>
    .record "SpecialIndexDefinition" [
      ("kind", spelled kind),
      ("name", option .text name),
      ("key_parts", array KeyPart.datum parts),
      ("options", array IndexOption.datum options)]
  | .check c => c.datum

end KeyDefinition

end Dump

end TableDdl
