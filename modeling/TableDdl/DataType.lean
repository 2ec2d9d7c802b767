import TableDdl.Attribute
import TableDdl.Dump.Datum

/-!
# Data types

The type of a column as it is written: a kind, and the lengths and attributes that belong to it.
A type starts with the word of its kind; lengths in parentheses, signs, character set and
collation follow in a fixed order and may be absent. Between a precision and a scale, and between
the texts of a choice, no space is written. As data a type is a variant around a record of its
attributes; two kinds have none.
-/
namespace TableDdl

inductive IntegerKind
  | tinyInt
  | smallInt
  | mediumInt
  | int
  | integer
  | bigInt
deriving DecidableEq

instance : Spelled IntegerKind where
  first := .tinyInt
  others := [.smallInt, .mediumInt, .int, .integer, .bigInt]
  head
    | .tinyInt => "TINYINT"
    | .smallInt => "SMALLINT"
    | .mediumInt => "MEDIUMINT"
    | .int => "INT"
    | .integer => "INTEGER"
    | .bigInt => "BIGINT"
  label
    | .tinyInt => "TinyInt"
    | .smallInt => "SmallInt"
    | .mediumInt => "MediumInt"
    | .int => "Int"
    | .integer => "Integer"
    | .bigInt => "BigInt"

/-- Fixed-point and floating-point kinds. -/
inductive NumericKind
  | decimal
  | numeric
  | dec
  | fixed
  | float
  | double
  | doublePrecision
  | real
deriving DecidableEq

instance : Spelled NumericKind where
  first := .decimal
  others := [.numeric, .dec, .fixed, .float, .double, .doublePrecision, .real]
  head
    | .decimal => "DECIMAL"
    | .numeric => "NUMERIC"
    | .dec => "DEC"
    | .fixed => "FIXED"
    | .float => "FLOAT"
    | .double => "DOUBLE"
    | .doublePrecision => "DOUBLE"
    | .real => "REAL"
  tail
    | .doublePrecision => ["PRECISION"]
    | _ => []
  label
    | .decimal => "Decimal"
    | .numeric => "Numeric"
    | .dec => "Dec"
    | .fixed => "Fixed"
    | .float => "Float"
    | .double => "Double"
    | .doublePrecision => "DoublePrecision"
    | .real => "Real"

inductive TemporalKind
  | date
  | time
  | timestamp
  | dateTime
  | year
deriving DecidableEq

instance : Spelled TemporalKind where
  first := .date
  others := [.time, .timestamp, .dateTime, .year]
  head
    | .date => "DATE"
    | .time => "TIME"
    | .timestamp => "TIMESTAMP"
    | .dateTime => "DATETIME"
    | .year => "YEAR"
  label
    | .date => "Date"
    | .time => "Time"
    | .timestamp => "Timestamp"
    | .dateTime => "DateTime"
    | .year => "Year"

inductive TextKind
  | char
  | nChar
  | varChar
  | text
  | tinyText
  | mediumText
  | longText
deriving DecidableEq

instance : Spelled TextKind where
  first := .char
  others := [.nChar, .varChar, .text, .tinyText, .mediumText, .longText]
  head
    | .char => "CHAR"
    | .nChar => "NCHAR"
    | .varChar => "VARCHAR"
    | .text => "TEXT"
    | .tinyText => "TINYTEXT"
    | .mediumText => "MEDIUMTEXT"
    | .longText => "LONGTEXT"
  label
    | .char => "Char"
    | .nChar => "NChar"
    | .varChar => "VarChar"
    | .text => "Text"
    | .tinyText => "TinyText"
    | .mediumText => "MediumText"
    | .longText => "LongText"

inductive BlobKind
  | binary
  | varBinary
  | blob
  | tinyBlob
  | mediumBlob
  | longBlob
deriving DecidableEq

instance : Spelled BlobKind where
  first := .binary
  others := [.varBinary, .blob, .tinyBlob, .mediumBlob, .longBlob]
  head
    | .binary => "BINARY"
    | .varBinary => "VARBINARY"
    | .blob => "BLOB"
    | .tinyBlob => "TINYBLOB"
    | .mediumBlob => "MEDIUMBLOB"
    | .longBlob => "LONGBLOB"
  label
    | .binary => "Binary"
    | .varBinary => "VarBinary"
    | .blob => "Blob"
    | .tinyBlob => "TinyBlob"
    | .mediumBlob => "MediumBlob"
    | .longBlob => "LongBlob"

inductive SpatialKind
  | geometry
  | point
  | lineString
  | polygon
  | multiPoint
  | multiLineString
  | multiPolygon
  | geometryCollection
deriving DecidableEq

instance : Spelled SpatialKind where
  first := .geometry
  others := [.point, .lineString, .polygon, .multiPoint, .multiLineString, .multiPolygon,
    .geometryCollection]
  head
    | .geometry => "GEOMETRY"
    | .point => "POINT"
    | .lineString => "LINESTRING"
    | .polygon => "POLYGON"
    | .multiPoint => "MULTIPOINT"
    | .multiLineString => "MULTILINESTRING"
    | .multiPolygon => "MULTIPOLYGON"
    | .geometryCollection => "GEOMETRYCOLLECTION"
  label
    | .geometry => "Geometry"
    | .point => "Point"
    | .lineString => "LineString"
    | .polygon => "Polygon"
    | .multiPoint => "MultiPoint"
    | .multiLineString => "MultiLineString"
    | .multiPolygon => "MultiPolygon"
    | .geometryCollection => "GeometryCollection"

structure IntegerType where
  kind : IntegerKind
  /-- The display width, such as the 4 of `TINYINT(4)`. -/
  width : Option UInt32
  unsigned : Bool
  zerofill : Bool
deriving DecidableEq

structure NumericType where
  kind : NumericKind
  precision : Option UInt32
  scale : Option UInt32
  unsigned : Bool
  zerofill : Bool
deriving DecidableEq

structure TemporalType where
  kind : TemporalKind
  /-- Digits of the fraction of a second, or the display width of a year. -/
  precision : Option UInt32
deriving DecidableEq

structure TextType where
  national : Bool
  kind : TextKind
  length : Option UInt32
  charset : Option String
  collation : Option String
deriving DecidableEq

structure BlobType where
  kind : BlobKind
  length : Option UInt32
deriving DecidableEq

/-- One of some texts, or any number of them. -/
structure ChoiceType where
  isSet : Bool
  values : List String
  charset : Option String
  collation : Option String
deriving DecidableEq

inductive DataType
  | bit (length : Option UInt32)
  | integer (type : IntegerType)
  | numeric (type : NumericType)
  | temporal (type : TemporalType)
  | text (type : TextType)
  | blob (type : BlobType)
  | choice (type : ChoiceType)
  | json
  | spatial (kind : SpatialKind)
  | bool
deriving DecidableEq

namespace Grammar

/-- A length in parentheses, which may be absent. -/
def length? : DdlRule (Option UInt32) := (parenthesized integer).optional

def unsigned : DdlRule Bool := (literal "UNSIGNED").flag

def zerofill : DdlRule Bool := (literal "ZEROFILL").flag

def charset? : DdlRule (Option String) := (charsetKeyword *> looseName).optional

def integerType : DdlRule IntegerType :=
  IntegerType.mk <$> spelled <*> length? <*> unsigned <*> zerofill

/-- The kinds before `DOUBLE`, which a second word may follow, and the one after it. -/
def numericKind : DdlRule NumericKind :=
  .oneOf (spelling .decimal) [
    spelling .numeric,
    spelling .dec,
    spelling .fixed,
    spelling .float,
    (fun precision => if precision then .doublePrecision else .double)
      <$> (literal "DOUBLE" *> (literal "PRECISION").flag),
    spelling .real]

/-- A precision, and a scale after a comma. -/
def size : DdlRule (Option (UInt32 × Option UInt32)) :=
  (parenthesized (.both integer (literal "," *> integer).optional)).optional

def numericType : DdlRule NumericType :=
  (fun kind size unsigned zerofill =>
    ⟨kind, size.map Prod.fst, size.bind Prod.snd, unsigned, zerofill⟩)
    <$> numericKind <*> size <*> unsigned <*> zerofill

def temporalType : DdlRule TemporalType := TemporalType.mk <$> spelled <*> length?

def textType : DdlRule TextType :=
  TextType.mk <$> (literal "NATIONAL").flag <*> spelled <*> length? <*> charset?
    <*> collate.optional

def blobType : DdlRule BlobType := BlobType.mk <$> spelled <*> length?

def choiceType : DdlRule ChoiceType :=
  ChoiceType.mk <$> ((literal "ENUM").as false <|> (literal "SET").as true)
    <*> (·.getD []) <$> (parenthesized (commaList string)).optional
    <*> charset?
    <*> collate.optional

def dataType : DdlRule DataType :=
  .oneOf (DataType.bit <$> (literal "BIT" *> length?)) [
    DataType.integer <$> integerType,
    DataType.numeric <$> numericType,
    DataType.temporal <$> temporalType,
    DataType.text <$> textType,
    DataType.blob <$> blobType,
    DataType.choice <$> choiceType,
    (literal "JSON").as .json,
    DataType.spatial <$> spelled,
    (literal "BOOL" <|> literal "BOOLEAN").as .bool]

end Grammar

section Layout

open Layout

namespace Layout

def length : Option UInt32 → Layout
  | none => []
  | some n => parenthesized (integer n.toNat)

def precisionAndScale : Option UInt32 → Option UInt32 → Layout
  | some p, some s => parenthesized (integer p.toNat ++ symbol "," ++ integer s.toNat)
  | some p, none => parenthesized (integer p.toNat)
  | none, _ => []

def sign (unsigned zerofill : Bool) : Layout :=
  onlyIf unsigned (word "UNSIGNED") ++ onlyIf zerofill (word "ZEROFILL")

def charset (charset collation : Option String) : Layout :=
  given charset (fun c => words ["CHARACTER", "SET"] ++ space ++ name c)
    ++ given collation collateClause

/-- The texts of a choice in parentheses, where there are any. -/
def choices : List String → Layout
  | [] => []
  | values => parenthesized (joined (symbol ",") (values.map string))

end Layout

def DataType.layout : DataType → Layout
  | .bit n => word "BIT" ++ length n
  | .integer t => spelled t.kind ++ length t.width ++ sign t.unsigned t.zerofill
  | .numeric t =>
    spelled t.kind ++ precisionAndScale t.precision t.scale ++ sign t.unsigned t.zerofill
  | .temporal t => spelled t.kind ++ length t.precision
  | .text t =>
    (if t.national then word "NATIONAL" ++ space else []) ++ spelled t.kind ++ length t.length
      ++ charset t.charset t.collation
  | .blob t => spelled t.kind ++ length t.length
  | .choice t =>
    word (if t.isSet then "SET" else "ENUM") ++ choices t.values ++ charset t.charset t.collation
  | .json => word "JSON"
  | .spatial kind => spelled kind
  | .bool => word "BOOL"

end Layout

section Dump

open Datum

def DataType.datum : DataType → Datum
  | .bit n => .wrapped "Bit" (.record "BitType" [("precision", option uint32 n)])
  | .integer t =>
    .wrapped "Integer" (.record "IntegerType" [
      ("kind", spelled t.kind),
      ("precision", option uint32 t.width),
      ("unsigned", .boolean t.unsigned),
      ("zerofill", .boolean t.zerofill)])
  | .numeric t =>
    .wrapped "Numeric" (.record "NumericType" [
      ("kind", spelled t.kind),
      ("precision", option uint32 t.precision),
      ("scale", option uint32 t.scale),
      ("unsigned", .boolean t.unsigned),
      ("zerofill", .boolean t.zerofill)])
  | .temporal t =>
    .wrapped "Temporal" (.record "TemporalType" [
      ("kind", spelled t.kind),
      ("fsp", option uint32 t.precision)])
  | .text t =>
    .wrapped "String" (.record "StringType" [
      ("national", .boolean t.national),
      ("kind", spelled t.kind),
      ("precision", option uint32 t.length),
      ("charset", option .text t.charset),
      ("collation", option .text t.collation)])
  | .blob t =>
    .wrapped "Blob" (.record "BlobType" [
      ("kind", spelled t.kind),
      ("precision", option uint32 t.length)])
  | .choice t =>
    .wrapped "EnumSet" (.record "EnumSetType" [
      ("is_set", .boolean t.isSet),
      ("values", texts t.values),
      ("charset", option .text t.charset),
      ("collation", option .text t.collation)])
  | .json => .variant "Json"
  | .spatial kind => .wrapped "Spatial" (spelled kind)
  | .bool => .variant "Bool"

end Dump

end TableDdl
