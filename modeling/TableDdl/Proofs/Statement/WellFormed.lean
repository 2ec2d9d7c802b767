import TableDdl.Proofs.Expression.WellFormed
import TableDdl.Statement

/-!
# Well-formed statements

What the types of the trees of statements do not say. Expressions in a statement may use all
levels of nesting. A name that may be written as a string literal can be written in one of the two
ways.
-/
namespace TableDdl

/-- A name that can be written, or the content of a literal. -/
def LooseOk (name : String) : Prop := NameOk name ∨ LiteralOk name

structure TableName.WellFormed (t : TableName) : Prop where
  schema : ∀ s ∈ t.schema, NameOk s
  name : NameOk t.name

structure TextType.WellFormed (t : TextType) : Prop where
  charset : ∀ n ∈ t.charset, LooseOk n
  collation : ∀ n ∈ t.collation, LooseOk n

structure ChoiceType.WellFormed (t : ChoiceType) : Prop where
  values : ∀ v ∈ t.values, LiteralOk v
  charset : ∀ n ∈ t.charset, LooseOk n
  collation : ∀ n ∈ t.collation, LooseOk n

def DataType.WellFormed : DataType → Prop
  | .numeric type => type.scale.isSome = true → type.precision.isSome = true
  | .text type => type.WellFormed
  | .choice type => type.WellFormed
  | _ => True

def KeyPart.WellFormed (p : KeyPart) : Prop :=
  match p.target with
  | .column name _ => NameOk name
  | .expression e => e.WellFormed 32

def IndexOption.WellFormed : IndexOption → Prop
  | .withParser name => NameOk name
  | .comment text => LiteralOk text
  | .engineAttribute text => LiteralOk text
  | .secondaryEngineAttribute text => LiteralOk text
  | .keyBlockSize _ => True
  | .indexType _ => True
  | .visible _ => True

def Constraint.WellFormed (c : Constraint) : Prop := ∀ n ∈ c.name, NameOk n

structure Reference.WellFormed (r : Reference) : Prop where
  table : r.table.WellFormed
  parts : OneOrMore KeyPart.WellFormed r.parts

structure Check.WellFormed (c : Check) : Prop where
  constraint : ∀ k ∈ c.constraint, k.WellFormed
  condition : c.condition.WellFormed 32

inductive KeyDefinition.WellFormed : KeyDefinition → Prop
  | index {name : Option String} {type : Option IndexType} {parts : List KeyPart}
    {options : List IndexOption} (named : ∀ n ∈ name, NameOk n)
    (some : OneOrMore KeyPart.WellFormed parts) (each : ∀ o ∈ options, o.WellFormed) :
    WellFormed (.index name type parts options)
  | primaryKey {constraint : Option Constraint} {type : Option IndexType} {parts : List KeyPart}
    {options : List IndexOption} (under : ∀ c ∈ constraint, c.WellFormed)
    (some : OneOrMore KeyPart.WellFormed parts) (each : ∀ o ∈ options, o.WellFormed) :
    WellFormed (.primaryKey constraint type parts options)
  | uniqueKey {constraint : Option Constraint} {name : Option String} {type : Option IndexType}
    {parts : List KeyPart} {options : List IndexOption} (under : ∀ c ∈ constraint, c.WellFormed)
    (named : ∀ n ∈ name, NameOk n) (some : OneOrMore KeyPart.WellFormed parts)
    (each : ∀ o ∈ options, o.WellFormed) :
    WellFormed (.uniqueKey constraint name type parts options)
  | foreignKey {constraint : Option Constraint} {name : Option String} {columns : List String}
    {reference : Reference} (under : ∀ c ∈ constraint, c.WellFormed)
    (named : ∀ n ∈ name, NameOk n) (some : OneOrMore NameOk columns)
    (target : reference.WellFormed) :
    WellFormed (.foreignKey constraint name columns reference)
  | specialIndex {kind : SpecialIndexKind} {name : Option String} {parts : List KeyPart}
    {options : List IndexOption} (named : ∀ n ∈ name, NameOk n)
    (some : OneOrMore KeyPart.WellFormed parts) (each : ∀ o ∈ options, o.WellFormed) :
    WellFormed (.specialIndex kind name parts options)
  | check {c : Check} (body : c.WellFormed) : WellFormed (.check c)

def DefaultValue.WellFormed : DefaultValue → Prop
  | .number x => x.Finite
  | .string content => LiteralOk content
  | .array items => OneOrMore (Expression.WellFormed 32) items
  | .boolean _ => True
  | .null => True
  | .time _ => True

/-- One of the attributes that stand before the collation is there. -/
def PlainAttributes.Leads (a : PlainAttributes) : Prop :=
  a.notNull.isSome = true ∨ a.default.isSome = true ∨ a.onUpdate.isSome = true ∨
    a.visible.isSome = true ∨ a.autoIncrement = true ∨ a.unique = true ∨ a.primary = true ∨
    a.comment.isSome = true

structure PlainAttributes.WellFormed (a : PlainAttributes) : Prop where
  default : ∀ d ∈ a.default, d.WellFormed
  comment : ∀ c ∈ a.comment, LiteralOk c
  collation : ∀ n ∈ a.collation, LooseOk n
  engineAttribute : ∀ t ∈ a.engineAttribute, LiteralOk t
  secondaryEngineAttribute : ∀ t ∈ a.secondaryEngineAttribute, LiteralOk t
  reference : ∀ r ∈ a.reference, r.WellFormed
  check : ∀ c ∈ a.check, c.WellFormed

structure GeneratedAttributes.WellFormed (a : GeneratedAttributes) : Prop where
  expression : a.expression.WellFormed 32
  comment : ∀ c ∈ a.comment, LiteralOk c
  reference : ∀ r ∈ a.reference, r.WellFormed
  check : ∀ c ∈ a.check, c.WellFormed

/-- A text type or a choice without a collation of its own. -/
def DataType.LacksCollation : DataType → Prop
  | .text type => type.collation = none
  | .choice type => type.collation = none
  | _ => False

/-- A collation of a plain column that the type could have taken stands after another attribute. -/
inductive Column.WellFormed : Column → Prop
  | plain {name : String} {type : DataType} {attributes : PlainAttributes} (named : NameOk name)
    (typed : type.WellFormed) (each : attributes.WellFormed)
    (collated : type.LacksCollation → attributes.collation.isSome = true → attributes.Leads) :
    WellFormed (.plain name type attributes)
  | generated {name : String} {type : DataType} {collation : Option String}
    {attributes : GeneratedAttributes} (named : NameOk name) (typed : type.WellFormed)
    (collated : ∀ n ∈ collation, LooseOk n) (each : attributes.WellFormed) :
    WellFormed (.generated name type collation attributes)

def HashPartition.WellFormed (p : HashPartition) : Prop := p.expression.WellFormed 32

/-- The list of columns of a key may be empty. -/
def KeyPartition.WellFormed (p : KeyPartition) : Prop := ∀ n ∈ p.columns, NameOk n

def PartitionBy.WellFormed : PartitionBy → Prop
  | .expression e => e.WellFormed 32
  | .columns names => OneOrMore NameOk names

def PartitionKind.WellFormed : PartitionKind → Prop
  | .hash p => p.WellFormed
  | .key p => p.WellFormed
  | .range basis => basis.WellFormed
  | .list basis => basis.WellFormed

def SubpartitionKind.WellFormed : SubpartitionKind → Prop
  | .hash p => p.WellFormed
  | .key p => p.WellFormed

def PartitionValue.WellFormed : PartitionValue → Prop
  | .maxValue => True
  | .expression e => e.WellFormed 32

/-- A list of values is `MAXVALUE` alone, or has two values or more. -/
def LessThan.WellFormed : LessThan → Prop
  | .maxValue => True
  | .expression e => e.WellFormed 32
  | .values vs => (vs = [.maxValue] ∨ 2 ≤ vs.length) ∧ ∀ v ∈ vs, v.WellFormed

def PartitionValues.WellFormed : PartitionValues → Prop
  | .lessThan bound => bound.WellFormed
  | .among items => OneOrMore (Expression.WellFormed 32) items

def PartitionOption.WellFormed : PartitionOption → Prop
  | .engine name => LooseOk name
  | .comment text => LiteralOk text
  | .dataDirectory text => LiteralOk text
  | .indexDirectory text => LiteralOk text
  | .tablespace name => LooseOk name
  | .maxRows _ => True
  | .minRows _ => True

structure PartitionDefinition.WellFormed (p : PartitionDefinition) : Prop where
  name : NameOk p.name
  values : ∀ v ∈ p.values, v.WellFormed
  options : ∀ o ∈ p.options, o.WellFormed

structure Partitioning.WellFormed (p : Partitioning) : Prop where
  kind : p.kind.WellFormed
  subpartitionBy : ∀ s ∈ p.subpartitionBy, s.WellFormed
  definitions : ∀ d ∈ p.definitions, d.WellFormed

def TableOption.WellFormed : TableOption → Prop
  | .characterSet name => LooseOk name
  | .collate name => LooseOk name
  | .comment text => LiteralOk text
  | .compression text => LiteralOk text
  | .connection text => LiteralOk text
  | .dataDirectory text => LiteralOk text
  | .indexDirectory text => LiteralOk text
  | .encryption text => LiteralOk text
  | .engine name => LooseOk name
  | .engineAttribute text => LiteralOk text
  | .secondaryEngineAttribute text => LiteralOk text
  | .password text => LiteralOk text
  | .tablespace name _ => LooseOk name
  | .union tables => ∀ n ∈ tables, NameOk n
  | _ => True

def Definition.WellFormed : Definition → Prop
  | .column c => c.WellFormed
  | .key k => k.WellFormed

structure CreateTable.WellFormed (t : CreateTable) : Prop where
  name : t.name.WellFormed
  definitions : ∀ d ∈ t.definitions, d.WellFormed
  options : ∀ o ∈ t.options, o.WellFormed
  partitioning : ∀ p ∈ t.partitioning, p.WellFormed

def ColumnPosition.WellFormed : ColumnPosition → Prop
  | .first => True
  | .after column => NameOk column

def AlterColumnAction.WellFormed : AlterColumnAction → Prop
  | .setDefault value => value.WellFormed
  | .dropDefault => True
  | .setVisible _ => True

def AlterOption.WellFormed : AlterOption → Prop
  | .addColumn column position => column.WellFormed ∧ ∀ p ∈ position, p.WellFormed
  | .addColumns columns => OneOrMore Column.WellFormed columns
  | .addKey key => key.WellFormed
  | .dropCheck name => NameOk name
  | .alterCheck name _ => NameOk name
  | .algorithm _ => True
  | .dropColumn name => NameOk name
  | .dropIndex name => NameOk name
  | .dropPrimaryKey => True
  | .dropForeignKey name => NameOk name
  | .alterColumn name action => NameOk name ∧ action.WellFormed
  | .alterIndex name _ => NameOk name
  | .modifyColumn column position => column.WellFormed ∧ ∀ p ∈ position, p.WellFormed
  | .changeColumn oldName column position =>
    NameOk oldName ∧ column.WellFormed ∧ ∀ p ∈ position, p.WellFormed
  | .renameColumn oldName newName => NameOk oldName ∧ NameOk newName
  | .renameIndex oldName newName => NameOk oldName ∧ NameOk newName
  | .renameTable name => name.WellFormed
  | .lock _ => True
  | .convertCharset charset collation => LooseOk charset ∧ ∀ n ∈ collation, LooseOk n
  | .tableOption option => option.WellFormed

def PartitionNames.WellFormed : PartitionNames → Prop
  | .all => True
  | .names ns => OneOrMore NameOk ns

def AlterPartitionOption.WellFormed : AlterPartitionOption → Prop
  | .partitionBy partitioning => partitioning.WellFormed
  | .addPartition definitions => OneOrMore PartitionDefinition.WellFormed definitions
  | .dropPartition names => OneOrMore NameOk names
  | .maintain _ partitions => partitions.WellFormed
  | .coalescePartition _ => True
  | .removePartitioning => True

def Alteration.WellFormed : Alteration → Prop
  | .option o => o.WellFormed
  | .partition o => o.WellFormed

structure AlterTable.WellFormed (t : AlterTable) : Prop where
  name : t.name.WellFormed
  options : ∀ o ∈ t.options, o.WellFormed
  partitionOptions : ∀ o ∈ t.partitionOptions, o.WellFormed

def Statement.WellFormed : Statement → Prop
  | .createTable table => table.WellFormed
  | .alterTable table => table.WellFormed

end TableDdl
