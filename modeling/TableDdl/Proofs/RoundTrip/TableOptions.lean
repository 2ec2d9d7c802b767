import TableDdl.Proofs.RoundTrip.DataTypes
import TableDdl.TableOption

/-!
# Codecs of table options

Every option is a setting. The names among them may come from string literals.
-/
namespace TableDdl

open Writes

def TableOption.written (o : TableOption) : Written := ⟨o.layout.lexemes, o.looseNames, []⟩

namespace Codec

def defaultOr : Codec Grammar.defaultOr (Exactly fun v => .plain v.layout.lexemes) :=
  (asTo (.word "DEFAULT") DefaultOr.default _).orElse (mapTo DefaultOr.value _ long)

/-- An option with one value. -/
def option {α : Type} {value : DdlRule α} {text : α → Written} (f : α → TableOption)
    (F : Codec value (Exactly text)) (same : ∀ x, (f x).written = text x := by intro; rfl) :
    Alternative (Exactly TableOption.written) :=
  ⟨f <$> value, mapTo f _ F same⟩

/-- The tablespace is written without an equals sign. -/
def tablespaceOption : Codec Grammar.tablespaceOption (Exactly TableOption.written) :=
  ((looseName.led ((Mark.word "TABLESPACE").before (.skip (Grammar.literal "=")))).map
    TableOption.tablespace).seq (led (.word "STORAGE") spelled).given |>.restate (by
    rintro _ _ ⟨_, storage, _, _, ⟨name, rfl, rfl⟩, rfl, rfl, rfl⟩
    apply Written.ext <;>
      simp [TableOption.written, TableOption.layout, TableOption.looseNames, loose, Spelled.words])

def insertMethod : Codec (Grammar.setting (Grammar.literal "INSERT_METHOD") Grammar.spelled)
    (Exactly fun x => (TableOption.insertMethod x).written) :=
  (setting (.word "INSERT_METHOD") spelled).restate (by rintro (_ | _ | _) _ rfl <;> rfl)

def rowFormat : Codec (Grammar.setting (Grammar.literal "ROW_FORMAT") Grammar.spelled)
    (Exactly fun x => (TableOption.rowFormat x).written) :=
  (setting (.word "ROW_FORMAT") spelled).restate (by
    rintro (_ | _ | _ | _ | _ | _) _ rfl <;> rfl)

def tableOption : Codec Grammar.tableOption (Exactly TableOption.written) :=
  choice (option .autoextendSize (long.setting (.word "AUTOEXTEND_SIZE"))) [
    option .autoIncrement (long.setting (.word "AUTO_INCREMENT")),
    option .avgRowLength (long.setting (.word "AVG_ROW_LENGTH")),
    option .characterSet ((looseName.setting charsetKeyword).led (.skip _)),
    option .checksum (long.setting (.word "CHECKSUM")),
    option .collate ((looseName.setting (.word "COLLATE")).led (.skip _)),
    option .comment (string.setting (.word "COMMENT")),
    option .compression (string.setting (.word "COMPRESSION")),
    option .connection (string.setting (.word "CONNECTION")),
    option .dataDirectory (string.setting ((Mark.word "DATA").after (.word "DIRECTORY"))),
    option .indexDirectory (string.setting ((Mark.word "INDEX").after (.word "DIRECTORY"))),
    option .delayKeyWrite (long.setting (.word "DELAY_KEY_WRITE")),
    option .encryption (string.setting (.word "ENCRYPTION")),
    option .engine (looseName.setting (.word "ENGINE")),
    option .engineAttribute (string.setting (.word "ENGINE_ATTRIBUTE")),
    option .insertMethod insertMethod,
    option .secondaryEngineAttribute (string.setting (.word "SECONDARY_ENGINE_ATTRIBUTE")),
    option .keyBlockSize (long.setting (.word "KEY_BLOCK_SIZE")),
    option .maxRows (long.setting (.word "MAX_ROWS")),
    option .minRows (long.setting (.word "MIN_ROWS")),
    option .packKeys (defaultOr.setting (.word "PACK_KEYS")),
    option .password (string.setting (.word "PASSWORD")),
    option .rowFormat rowFormat,
    option .statsAutoRecalc (defaultOr.setting (.word "STATS_AUTO_RECALC")),
    option .statsPersistent (defaultOr.setting (.word "STATS_PERSISTENT")),
    option .statsSamplePages (long.setting (.word "STATS_SAMPLE_PAGES")),
    alternative tablespaceOption,
    option .union (parenthesizedNames0.setting (.word "UNION"))]

/-- Options are written without commas between them. -/
def followingOption : Codec ((Grammar.literal ",").optional *> Grammar.tableOption)
    (Exactly TableOption.written) :=
  tableOption.led (.skip _)

def tableOptions : Codec Grammar.tableOptions (Exactly fun os =>
    ⟨(Layout.appended (os.map TableOption.layout)).lexemes, os.flatMap TableOption.looseNames, []⟩) :=
  followingOption.repetition.restate (by
    rintro os _ rfl
    apply Written.ext <;> simp [Layout.appended, List.flatMap_map])

end Codec
end TableDdl
