import TableDdl.DataType
import TableDdl.Key

/-!
# Columns

A column has a name and a type. It is plain, or generated from an expression; the two kinds have
different attributes, which come in a fixed order and may each be absent, and are written in that
order. A generated column is tried first: it starts with `GENERATED` or `AS`, a plain one may
start with anything. As data the attributes stand beside the name and the type in one record.
-/
namespace TableDdl

/-- Whether a generated column is computed when read or when written. -/
inductive GeneratedStorage
  | virtually
  | stored
deriving DecidableEq

instance : Spelled GeneratedStorage where
  first := .virtually
  others := [.stored]
  head
    | .virtually => "VIRTUAL"
    | .stored => "STORED"
  label
    | .virtually => "Virtual"
    | .stored => "Stored"

inductive ColumnFormat
  | fixed
  | dynamic
  | default
deriving DecidableEq

instance : Spelled ColumnFormat where
  first := .fixed
  others := [.dynamic, .default]
  head
    | .fixed => "FIXED"
    | .dynamic => "DYNAMIC"
    | .default => "DEFAULT"
  label
    | .fixed => "Fixed"
    | .dynamic => "Dynamic"
    | .default => "Default"

inductive TimeFunction
  | currentTimestamp
  | now
  | localTime
  | localTimestamp
deriving DecidableEq

instance : Spelled TimeFunction where
  first := .currentTimestamp
  others := [.now, .localTime, .localTimestamp]
  head
    | .currentTimestamp => "CURRENT_TIMESTAMP"
    | .now => "NOW"
    | .localTime => "LOCALTIME"
    | .localTimestamp => "LOCALTIMESTAMP"
  label
    | .currentTimestamp => "CurrentTimestamp"
    | .now => "Now"
    | .localTime => "LocalTime"
    | .localTimestamp => "LocalTimestamp"

/-- A time function, such as `NOW()` or `CURRENT_TIMESTAMP(3)`. -/
structure TimeCall where
  function : TimeFunction
  precision : Option UInt32
deriving DecidableEq

inductive DefaultValue
  | number (x : Number.Binary64)
  | string (content : String)
  | boolean (b : Bool)
  | null
  /-- Expressions in parentheses. -/
  | array (items : List Expression)
  | time (call : TimeCall)
deriving DecidableEq

structure PlainAttributes where
  /-- True for `NOT NULL`, false for `NULL`. -/
  notNull : Option Bool := none
  default : Option DefaultValue := none
  onUpdate : Option TimeCall := none
  visible : Option Bool := none
  autoIncrement : Bool := false
  unique : Bool := false
  primary : Bool := false
  comment : Option String := none
  collation : Option String := none
  format : Option ColumnFormat := none
  engineAttribute : Option String := none
  secondaryEngineAttribute : Option String := none
  storage : Option StorageMedium := none
  reference : Option Reference := none
  check : Option Check := none
deriving DecidableEq

structure GeneratedAttributes where
  expression : Expression
  storage : Option GeneratedStorage
  notNull : Option Bool
  visible : Option Bool
  unique : Bool
  primary : Bool
  comment : Option String
  reference : Option Reference
  check : Option Check
deriving DecidableEq

inductive Column
  | plain (name : String) (type : DataType) (attributes : PlainAttributes)
  | generated (name : String) (type : DataType) (collation : Option String)
    (attributes : GeneratedAttributes)
deriving DecidableEq

namespace Column

def name : Column → String
  | .plain name _ _ => name
  | .generated name _ _ _ => name

def type : Column → DataType
  | .plain _ type _ => type
  | .generated _ type _ _ => type

/-- A column without attributes. -/
def bare (name : String) (type : DataType) : Column := .plain name type {}

/-- Whether a plain column refuses null; a generated column has no answer. -/
def isNotNull? : Column → Option Bool
  | .plain _ _ attributes => some (attributes.notNull == some true)
  | .generated .. => none

end Column

namespace Grammar

def nullability : DdlRule Bool :=
  (literal "NOT" *> literal "NULL").as true <|> (literal "NULL").as false

def uniqueAttribute : DdlRule Bool := (literal "UNIQUE" *> (literal "KEY").optional).flag

def primaryAttribute : DdlRule Bool := ((literal "PRIMARY").optional *> literal "KEY").flag

def comment? : DdlRule (Option String) := (literal "COMMENT" *> string).optional

/-- Parentheses after a time function may be empty. -/
def timeCall : DdlRule TimeCall :=
  (fun function precision => ⟨function, precision.join⟩)
    <$> spelled <*> (parenthesized integer.optional).optional

def defaultValue : DdlRule DefaultValue :=
  .oneOf (DefaultValue.number <$> number) [
    DefaultValue.string <$> string,
    DefaultValue.boolean <$> boolean,
    (literal "NULL").as .null,
    DefaultValue.array <$> parenthesized (commaList expression),
    DefaultValue.time <$> timeCall]

def generatedAttributes : DdlRule GeneratedAttributes :=
  GeneratedAttributes.mk
    <$> ((literal "GENERATED" *> literal "ALWAYS").optional *> literal "AS"
      *> parenthesized expression)
    <*> spelled.optional
    <*> nullability.optional
    <*> visibility.optional
    <*> uniqueAttribute
    <*> primaryAttribute
    <*> comment?
    <*> reference.optional
    <*> check.optional

def plainAttributes : DdlRule PlainAttributes :=
  PlainAttributes.mk
    <$> nullability.optional
    <*> (literal "DEFAULT" *> defaultValue).optional
    <*> (literal "ON" *> literal "UPDATE" *> timeCall).optional
    <*> visibility.optional
    <*> (literal "AUTO_INCREMENT").flag
    <*> uniqueAttribute
    <*> primaryAttribute
    <*> comment?
    <*> collate.optional
    <*> (literal "COLUMN_FORMAT" *> spelled).optional
    <*> (setting (literal "ENGINE_ATTRIBUTE") string).optional
    <*> (setting (literal "SECONDARY_ENGINE_ATTRIBUTE") string).optional
    <*> (literal "STORAGE" *> spelled).optional
    <*> reference.optional
    <*> check.optional

/-- A collation among the attributes counts before one right after the type. -/
def columnBody : DdlRule (String → DataType → Option String → Column) :=
  (fun attributes name type collation => .generated name type collation attributes)
      <$> generatedAttributes
    <|> (fun attributes name type collation =>
        .plain name type { attributes with collation := attributes.collation <|> collation })
      <$> plainAttributes

def column : DdlRule Column :=
  (fun name type collation body => body name type collation)
    <$> identifier <*> dataType <*> collate.optional <*> columnBody

end Grammar

section Layout

open Layout

/-- `NOW` always has parentheses; the other time functions have them around a precision. -/
def TimeCall.layout (c : TimeCall) : Layout :=
  spelled c.function ++ match c.precision, c.function with
    | some p, _ => parenthesized (integer p.toNat)
    | none, .now => parenthesized []
    | none, _ => []

def DefaultValue.layout : DefaultValue → Layout
  | .number x => .number x
  | .string content => .string content
  | .boolean b => .boolean b
  | .null => word "NULL"
  | .array items => parenthesized (commaSeparated (items.map Expression.layout))
  | .time call => call.layout

def nullabilityWords (notNull : Bool) : Layout :=
  words (if notNull then ["NOT", "NULL"] else ["NULL"])

def PlainAttributes.layout (a : PlainAttributes) : Layout :=
  given a.notNull nullabilityWords
    ++ given a.default (fun d => word "DEFAULT" ++ space ++ d.layout)
    ++ given a.onUpdate (fun c => words ["ON", "UPDATE"] ++ space ++ c.layout)
    ++ given a.visible visibility
    ++ onlyIf a.autoIncrement (word "AUTO_INCREMENT")
    ++ onlyIf a.unique (word "UNIQUE")
    ++ onlyIf a.primary (words ["PRIMARY", "KEY"])
    ++ given a.comment (fun c => word "COMMENT" ++ space ++ string c)
    ++ given a.collation collateClause
    ++ given a.format (fun f => word "COLUMN_FORMAT" ++ space ++ spelled f)
    ++ given a.engineAttribute (fun t => setting ["ENGINE_ATTRIBUTE"] (string t))
    ++ given a.secondaryEngineAttribute
      (fun t => setting ["SECONDARY_ENGINE_ATTRIBUTE"] (string t))
    ++ given a.storage (fun s => word "STORAGE" ++ space ++ spelled s)
    ++ given a.reference Reference.layout
    ++ given a.check Check.layout

def GeneratedAttributes.layout (a : GeneratedAttributes) : Layout :=
  space ++ words ["GENERATED", "ALWAYS", "AS"] ++ space ++ parenthesized a.expression.layout
    ++ given a.storage spelled
    ++ given a.notNull nullabilityWords
    ++ given a.visible visibility
    ++ onlyIf a.unique (word "UNIQUE")
    ++ onlyIf a.primary (words ["PRIMARY", "KEY"])
    ++ given a.comment (fun c => word "COMMENT" ++ space ++ string c)
    ++ given a.reference Reference.layout
    ++ given a.check Check.layout

def Column.layout : Column → Layout
  | .plain name type attributes => .name name ++ space ++ type.layout ++ attributes.layout
  | .generated name type label attributes =>
    .name name ++ space ++ type.layout ++ given label collateClause ++ attributes.layout

end Layout

section Dump

open Datum

def TimeCall.datum (c : TimeCall) : Datum :=
  .record "TimeFunctionCall" [
    ("function", spelled c.function),
    ("precision", option uint32 c.precision)]

def DefaultValue.datum : DefaultValue → Datum
  | .number x => .wrapped "Number" (.number x)
  | .string content => .wrapped "String" (.text content)
  | .boolean b => .wrapped "Boolean" (.boolean b)
  | .null => .variant "Null"
  | .array items => .wrapped "Array" (Datum.array Expression.datum items)
  | .time call => .wrapped "TimeFunction" call.datum

def Column.datum : Column → Datum
  | .plain name type a =>
    .wrapped "Simple" (.record "SimpleColumnDefinition" [
      ("name", .text name),
      ("data_type", type.datum),
      ("not_null", option .boolean a.notNull),
      ("default", option DefaultValue.datum a.default),
      ("on_update", option TimeCall.datum a.onUpdate),
      ("visible", option .boolean a.visible),
      ("auto_increment", .boolean a.autoIncrement),
      ("unique_key", .boolean a.unique),
      ("primary_key", .boolean a.primary),
      ("comment", option .text a.comment),
      ("collation", option .text a.collation),
      ("column_format", option spelled a.format),
      ("engine_attribute", option .text a.engineAttribute),
      ("secondary_engine_attribute", option .text a.secondaryEngineAttribute),
      ("storage", option spelled a.storage),
      ("reference", option Reference.datum a.reference),
      ("check", option Check.datum a.check)])
  | .generated name type collation a =>
    .wrapped "Generated" (.record "GeneratedColumnDefinition" [
      ("name", .text name),
      ("data_type", type.datum),
      ("collation", option .text collation),
      ("expression", a.expression.datum),
      ("storage", option spelled a.storage),
      ("not_null", option .boolean a.notNull),
      ("visible", option .boolean a.visible),
      ("unique_key", .boolean a.unique),
      ("primary_key", .boolean a.primary),
      ("comment", option .text a.comment),
      ("reference", option Reference.datum a.reference),
      ("check", option Check.datum a.check)])

end Dump

end TableDdl
