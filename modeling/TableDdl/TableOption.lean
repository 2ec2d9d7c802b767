import TableDdl.Attribute
import TableDdl.Dump.Datum

/-!
# Table options

An option is a key with a value. A table may have an option more than once; all are kept, in
order. The equals sign between key and value may be left out, and the character set and the
collation may have the word `DEFAULT` in front; every option but the tablespace is written with
an equals sign. As data an option is a variant around its value, and the tablespace has two named
fields.
-/
namespace TableDdl

inductive InsertMethod
  | no
  | first
  | last
deriving DecidableEq

instance : Spelled InsertMethod where
  first := .no
  others := [.first, .last]
  head
    | .no => "NO"
    | .first => "FIRST"
    | .last => "LAST"
  label
    | .no => "No"
    | .first => "First"
    | .last => "Last"

inductive RowFormat
  | default
  | dynamic
  | fixed
  | compressed
  | redundant
  | compact
deriving DecidableEq

instance : Spelled RowFormat where
  first := .default
  others := [.dynamic, .fixed, .compressed, .redundant, .compact]
  head
    | .default => "DEFAULT"
    | .dynamic => "DYNAMIC"
    | .fixed => "FIXED"
    | .compressed => "COMPRESSED"
    | .redundant => "REDUNDANT"
    | .compact => "COMPACT"
  label
    | .default => "Default"
    | .dynamic => "Dynamic"
    | .fixed => "Fixed"
    | .compressed => "Compressed"
    | .redundant => "Redundant"
    | .compact => "Compact"

/-- A number, or the word `DEFAULT` in its place. -/
inductive DefaultOr
  | default
  | value (n : UInt64)
deriving DecidableEq

inductive TableOption
  | autoextendSize (n : UInt64)
  | autoIncrement (n : UInt64)
  | avgRowLength (n : UInt64)
  | characterSet (name : String)
  | checksum (n : UInt64)
  | collate (name : String)
  | comment (text : String)
  | compression (text : String)
  | connection (text : String)
  | dataDirectory (text : String)
  | indexDirectory (text : String)
  | delayKeyWrite (n : UInt64)
  | encryption (text : String)
  | engine (name : String)
  | engineAttribute (text : String)
  | insertMethod (method : InsertMethod)
  | secondaryEngineAttribute (text : String)
  | keyBlockSize (n : UInt64)
  | maxRows (n : UInt64)
  | minRows (n : UInt64)
  | packKeys (value : DefaultOr)
  | password (text : String)
  | rowFormat (format : RowFormat)
  | statsAutoRecalc (value : DefaultOr)
  | statsPersistent (value : DefaultOr)
  | statsSamplePages (n : UInt64)
  | tablespace (name : String) (storage : Option StorageMedium)
  | union (tables : List String)
deriving DecidableEq

namespace Grammar

def defaultOr : DdlRule DefaultOr := (literal "DEFAULT").as .default <|> DefaultOr.value <$> long

/-- An option after a word that may be left out. -/
def perhapsDefault {α : Type} (r : DdlRule α) : DdlRule α := (literal "DEFAULT").optional *> r

def tablespaceOption : DdlRule TableOption :=
  TableOption.tablespace <$> setting (literal "TABLESPACE") looseName
    <*> (literal "STORAGE" *> spelled).optional

def tableOption : DdlRule TableOption :=
  .oneOf (TableOption.autoextendSize <$> setting (literal "AUTOEXTEND_SIZE") long) [
    TableOption.autoIncrement <$> setting (literal "AUTO_INCREMENT") long,
    TableOption.avgRowLength <$> setting (literal "AVG_ROW_LENGTH") long,
    TableOption.characterSet <$> perhapsDefault (setting charsetKeyword looseName),
    TableOption.checksum <$> setting (literal "CHECKSUM") long,
    TableOption.collate <$> perhapsDefault (setting (literal "COLLATE") looseName),
    TableOption.comment <$> setting (literal "COMMENT") string,
    TableOption.compression <$> setting (literal "COMPRESSION") string,
    TableOption.connection <$> setting (literal "CONNECTION") string,
    TableOption.dataDirectory <$> setting (literal "DATA" *> literal "DIRECTORY") string,
    TableOption.indexDirectory <$> setting (literal "INDEX" *> literal "DIRECTORY") string,
    TableOption.delayKeyWrite <$> setting (literal "DELAY_KEY_WRITE") long,
    TableOption.encryption <$> setting (literal "ENCRYPTION") string,
    TableOption.engine <$> setting (literal "ENGINE") looseName,
    TableOption.engineAttribute <$> setting (literal "ENGINE_ATTRIBUTE") string,
    TableOption.insertMethod <$> setting (literal "INSERT_METHOD") spelled,
    TableOption.secondaryEngineAttribute
      <$> setting (literal "SECONDARY_ENGINE_ATTRIBUTE") string,
    TableOption.keyBlockSize <$> setting (literal "KEY_BLOCK_SIZE") long,
    TableOption.maxRows <$> setting (literal "MAX_ROWS") long,
    TableOption.minRows <$> setting (literal "MIN_ROWS") long,
    TableOption.packKeys <$> setting (literal "PACK_KEYS") defaultOr,
    TableOption.password <$> setting (literal "PASSWORD") string,
    TableOption.rowFormat <$> setting (literal "ROW_FORMAT") spelled,
    TableOption.statsAutoRecalc <$> setting (literal "STATS_AUTO_RECALC") defaultOr,
    TableOption.statsPersistent <$> setting (literal "STATS_PERSISTENT") defaultOr,
    TableOption.statsSamplePages <$> setting (literal "STATS_SAMPLE_PAGES") long,
    tablespaceOption,
    TableOption.union <$> setting (literal "UNION") (parenthesized (commaList0 identifier))]

/-- Commas between options may be left out. -/
def tableOptions : DdlRule (List TableOption) := ((literal ",").optional *> tableOption).many

end Grammar

section Layout

open Layout

def DefaultOr.layout : DefaultOr → Layout
  | .default => word "DEFAULT"
  | .value n => integer n.toNat

def TableOption.layout : TableOption → Layout
  | .autoextendSize n => setting ["AUTOEXTEND_SIZE"] (integer n.toNat)
  | .autoIncrement n => setting ["AUTO_INCREMENT"] (integer n.toNat)
  | .avgRowLength n => setting ["AVG_ROW_LENGTH"] (integer n.toNat)
  | .characterSet n => setting ["CHARACTER", "SET"] (name n)
  | .checksum n => setting ["CHECKSUM"] (integer n.toNat)
  | .collate n => setting ["COLLATE"] (name n)
  | .comment t => setting ["COMMENT"] (string t)
  | .compression t => setting ["COMPRESSION"] (string t)
  | .connection t => setting ["CONNECTION"] (string t)
  | .dataDirectory t => setting ["DATA", "DIRECTORY"] (string t)
  | .indexDirectory t => setting ["INDEX", "DIRECTORY"] (string t)
  | .delayKeyWrite n => setting ["DELAY_KEY_WRITE"] (integer n.toNat)
  | .encryption t => setting ["ENCRYPTION"] (string t)
  | .engine n => setting ["ENGINE"] (name n)
  | .engineAttribute t => setting ["ENGINE_ATTRIBUTE"] (string t)
  | .insertMethod x => setting ["INSERT_METHOD"] (spelled x)
  | .secondaryEngineAttribute t => setting ["SECONDARY_ENGINE_ATTRIBUTE"] (string t)
  | .keyBlockSize n => setting ["KEY_BLOCK_SIZE"] (integer n.toNat)
  | .maxRows n => setting ["MAX_ROWS"] (integer n.toNat)
  | .minRows n => setting ["MIN_ROWS"] (integer n.toNat)
  | .packKeys v => setting ["PACK_KEYS"] v.layout
  | .password t => setting ["PASSWORD"] (string t)
  | .rowFormat x => setting ["ROW_FORMAT"] (spelled x)
  | .statsAutoRecalc v => setting ["STATS_AUTO_RECALC"] v.layout
  | .statsPersistent v => setting ["STATS_PERSISTENT"] v.layout
  | .statsSamplePages n => setting ["STATS_SAMPLE_PAGES"] (integer n.toNat)
  | .tablespace n storage =>
    word "TABLESPACE" ++ space ++ name n
      ++ given storage fun s => word "STORAGE" ++ space ++ spelled s
  | .union tables => setting ["UNION"] (parenthesized (names tables))

end Layout

section Dump

open Datum

def DefaultOr.datum : DefaultOr → Datum
  | .default => .variant "Default"
  | .value n => .wrapped "Value" (uint64 n)

def TableOption.datum : TableOption → Datum
  | .autoextendSize n => .wrapped "AutoextendSize" (uint64 n)
  | .autoIncrement n => .wrapped "AutoIncrement" (uint64 n)
  | .avgRowLength n => .wrapped "AvgRowLength" (uint64 n)
  | .characterSet n => .wrapped "CharacterSet" (.text n)
  | .checksum n => .wrapped "Checksum" (uint64 n)
  | .collate n => .wrapped "Collate" (.text n)
  | .comment t => .wrapped "Comment" (.text t)
  | .compression t => .wrapped "Compression" (.text t)
  | .connection t => .wrapped "Connection" (.text t)
  | .dataDirectory t => .wrapped "DataDirectory" (.text t)
  | .indexDirectory t => .wrapped "IndexDirectory" (.text t)
  | .delayKeyWrite n => .wrapped "DelayKeyWrite" (uint64 n)
  | .encryption t => .wrapped "Encryption" (.text t)
  | .engine n => .wrapped "Engine" (.text n)
  | .engineAttribute t => .wrapped "EngineAttribute" (.text t)
  | .insertMethod x => .wrapped "InsertMethod" (spelled x)
  | .secondaryEngineAttribute t => .wrapped "SecondaryEngineAttribute" (.text t)
  | .keyBlockSize n => .wrapped "KeyBlockSize" (uint64 n)
  | .maxRows n => .wrapped "MaxRows" (uint64 n)
  | .minRows n => .wrapped "MinRows" (uint64 n)
  | .packKeys v => .wrapped "PackKeys" (v.datum)
  | .password t => .wrapped "Password" (.text t)
  | .rowFormat x => .wrapped "RowFormat" (spelled x)
  | .statsAutoRecalc v => .wrapped "StatsAutoRecalc" (v.datum)
  | .statsPersistent v => .wrapped "StatsPersistent" (v.datum)
  | .statsSamplePages n => .wrapped "StatsSamplePages" (uint64 n)
  | .tablespace n storage =>
    .tagged "Tablespace" [("name", .text n), ("storage", option spelled storage)]
  | .union tables => .wrapped "Union" (texts tables)

end Dump

end TableDdl
