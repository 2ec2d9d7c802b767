import TableDdl.Proofs.RoundTrip.Columns
import TableDdl.Proofs.RoundTrip.Parsing
import TableDdl.Proofs.RoundTrip.Partitions
import TableDdl.Proofs.RoundTrip.TableOptions
import TableDdl.Proofs.Statement.Spacing
import TableDdl.Statement

/-!
# Written table definitions

A table definition that was parsed is written as a text that is parsed as the same definition.
The names that come from string literals have to be writable as names, and no reference may start
with a time function in lower case.
-/
namespace TableDdl

open Writes

def Definition.written (d : Definition) : Written := ⟨d.layout.lexemes, d.looseNames, d.heads⟩

def CreateTable.written (t : CreateTable) : Written := ⟨t.layout.lexemes, t.looseNames, t.heads⟩

namespace Codec

def definition : Codec Grammar.definition (Exactly Definition.written) :=
  (mapTo Definition.key _ keyDefinition).orElse (mapTo Definition.column _ column)

def definitions : Codec (Grammar.parenthesized (Grammar.commaList0 Grammar.definition))
    (Exactly fun ds => ⟨(Layout.parenthesized
      (Layout.commaSeparated (ds.map Definition.layout))).lexemes,
      ds.flatMap Definition.looseNames, ds.flatMap Definition.heads⟩) :=
  (commas0 definition).parenthesized.restate (by
    rintro ds _ ⟨_, ⟨_, rfl, rfl⟩, rfl⟩
    apply Written.ext <;> simp)

def createTable : Codec Grammar.createTable (Exactly CreateTable.written) :=
  (((((((flag (.word "TEMPORARY")).led (.word "CREATE")).map CreateTable.mk).seq
    ((flag (((Mark.word "IF").after (.word "NOT")).after (.word "EXISTS"))).led
      (.word "TABLE"))).seq tableName).seq definitions).seq tableOptions).seq
    (partitioning.led ((Mark.word "PARTITION").after (.word "BY"))).given |>.restate (by
    rintro _ _ ⟨_, partitioning, _, _, ⟨_, options, _, _, ⟨_, definitions, _, _, ⟨_, name, _, _,
      ⟨_, ifNotExists, _, _, ⟨temporary, rfl, rfl⟩, rfl, rfl, rfl⟩, rfl, rfl, rfl⟩, rfl, rfl, rfl⟩,
      rfl, rfl, rfl⟩, rfl, rfl, rfl⟩
    apply Written.ext <;>
      simp [CreateTable.written, CreateTable.layout, CreateTable.looseNames, CreateTable.heads,
        Partitioning.written])

theorem coherent_createTable : createTable.coherent = true := by decide +kernel

end Codec

namespace CreateTable

theorem parse_write_of_parse {sql : String} {ct : CreateTable}
    (parsed : CreateTable.parse Keywords.mysql sql = .ok ct)
    (names : ∀ name ∈ ct.looseNames, NameOk name) (heads : ∀ head ∈ ct.heads, HeadOk head) :
    CreateTable.parse Keywords.mysql ct.layout.write = .ok ct := by
  obtain ⟨ts, mid, cut, read, -⟩ := Parser.read_of_parse parsed
  obtain ⟨_, rfl, back⟩ :=
    Codec.createTable.written Codec.coherent_createTable (scanned_of_tokenize cut) read
  exact Parser.parse_write_of_readsBack back (CreateTable.spaced_layout ct) rfl ⟨names, heads⟩

/-- The collation is written after the other attributes, and the engine without quotes. -/
theorem parse_write_of_parse_collation : ∃ ct : CreateTable,
    CreateTable.parse Keywords.mysql "create table t (a int collate latin1 null) engine 'x y'" =
      .ok ct ∧
    ct.layout.write = "CREATE TABLE t (a INT NULL COLLATE latin1) ENGINE = \x60x y\x60" ∧
    CreateTable.parse Keywords.mysql ct.layout.write = .ok ct := by
  have parsed : CreateTable.parse Keywords.mysql
      "create table t (a int collate latin1 null) engine 'x y'" =
      .ok ⟨false, false, ⟨none, "t"⟩, [.column (.plain "a" (.integer ⟨.int, none, false, false⟩)
        { notNull := some false, collation := some "latin1" })], [.engine "x y"], none⟩ :=
    Parser.eq_ok_of_toOption (by decide +kernel)
  exact ⟨_, parsed, by decide +kernel,
    parse_write_of_parse parsed (by decide +kernel) (by decide +kernel)⟩

end CreateTable

end TableDdl
