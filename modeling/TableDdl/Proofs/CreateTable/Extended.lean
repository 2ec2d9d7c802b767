import TableDdl.Proofs.CreateTable.RoundTrip
import TableDdl.Proofs.Keyword.Extension

/-!
# Written table definitions under larger keyword tables

Names are written bare where they are no keywords of the default table. A larger table may
reserve such a name; then the written definition is no longer accepted. This is the only way in
which a written definition is not read back.
-/
namespace TableDdl

variable {keywords : Keywords}

/-- Every word of the layout that the table reserves is a keyword of the default table. -/
def Layout.RespectedBy (keywords : Keywords) (layout : Layout) : Prop :=
  ∀ l ∈ layout.lexemes, l.token.isWord = true → keywords.isReserved l.token.text = true →
    Keywords.mysql.isKeyword l.token.text = true

/-- A written layout shows the words that the table has to respect. -/
theorem Layout.respectedBy_iff {layout : Layout} {ts : List Token} (larger : keywords.IsLarger)
    (same : ts.map Token.anywhere = tokensOf layout.lexemes) :
    layout.RespectedBy keywords ↔ ∀ t ∈ ts, t.ReservedAlike .mysql keywords := by
  have known (P : Token → Prop) (place : ∀ t, P t.anywhere ↔ P t) :
      (∀ l ∈ layout.lexemes, P l.token) ↔ ∀ t ∈ ts, P t := by
    have all : (∀ l ∈ layout.lexemes, P l.token) ↔ ∀ t ∈ tokensOf layout.lexemes, P t := by
      simp [tokensOf]
    rw [all, ← same]
    simp [place]
  simp only [Token.reservedAlike_iff larger]
  exact known (fun t => t.isWord = true → keywords.isReserved t.text = true →
    Keywords.mysql.isKeyword t.text = true) fun _ => Iff.rfl

namespace CreateTable

theorem read_of_statement {calls : Nat} {c next : Cursor} {ct : CreateTable}
    (read : Grammar.statement.read calls c = .matched (.createTable ct) next) :
    Grammar.createTable.read calls c = .matched ct next := by
  rcases Rule.either_matched_iff.1 read with matched | ⟨-, matched⟩
  · obtain ⟨_, matched, ⟨⟩⟩ := Rule.map_matched_iff.1 matched
    exact matched
  · obtain ⟨_, -, ⟨⟩⟩ := Rule.map_matched_iff.1 matched

theorem parse_write_statement {sql : String} {ct : CreateTable}
    (parsed : Statement.parse Keywords.mysql sql = .ok (.createTable ct))
    (names : ∀ name ∈ ct.looseNames, NameOk name) (heads : ∀ head ∈ ct.heads, HeadOk head) :
    Statement.parse Keywords.mysql ct.layout.write = .ok (.createTable ct) ∧
      ∃ ts, tokenize Keywords.mysql ct.layout.write = .ok ts ∧
        ts.map Token.anywhere = tokensOf ct.layout.lexemes := by
  obtain ⟨ts, mid, cut, read, -⟩ := Parser.read_of_parse parsed
  obtain ⟨_, rfl, own⟩ := Codec.createTable.written Codec.coherent_createTable
    (scanned_of_tokenize cut) (read_of_statement read)
  have back : Grammar.statement.ReadsBack Parser.calls 0 Codec.createTable.edges (.createTable ct)
      ct.written := (own.map Statement.createTable).left
  have good : ct.written.Good := ⟨names, heads⟩
  have spaced := CreateTable.spaced_layout ct
  exact ⟨Parser.parse_write_of_readsBack back spaced rfl good,
    tokenize_write spaced (back.sound.writable good) back.sound.2⟩

/-- A table definition that was parsed under a larger table is read back from its written form
just where the table reserves no word of the form that the default table lacks. -/
theorem parse_write_extended_iff {words : List String} {sql : String} {ct : CreateTable}
    (extended : Keywords.mysql.extend words = .ok keywords)
    (parsed : Statement.parse keywords sql = .ok (.createTable ct))
    (names : ∀ name ∈ ct.looseNames, NameOk name) (heads : ∀ head ∈ ct.heads, HeadOk head) :
    Statement.parse keywords ct.layout.write = .ok (.createTable ct) ↔
      ct.layout.RespectedBy keywords := by
  have larger := Keywords.isLarger_of_extend extended
  have parsed : Parser.parse keywords EntryPoint.statement.rule sql = .ok (.createTable ct) := parsed
  obtain ⟨_, -, -, -, default⟩ := EntryPoint.tokenize_mysql_of_parse larger parsed
  obtain ⟨again, ts, cut, same⟩ := parse_write_statement default names heads
  have again : Parser.parse .mysql EntryPoint.statement.rule ct.layout.write =
    .ok (.createTable ct) := again
  rw [Layout.respectedBy_iff larger same]
  have alike := EntryPoint.parse_larger_iff larger cut again
  exact alike

/-- A name that was a keyword already is quoted, so reserving one more word does no harm. -/
theorem parse_write_extended_quoted : ∃ ct : CreateTable,
    Statement.parse (Keywords.mysql.insert "ROW") "create table \x60order\x60 (a int)" =
      .ok (.createTable ct) ∧
    ct.layout.write = "CREATE TABLE \x60order\x60 (a INT)" ∧
    Statement.parse (Keywords.mysql.insert "ROW") ct.layout.write = .ok (.createTable ct) := by
  have extended : Keywords.mysql.extend ["row"] = .ok (Keywords.mysql.insert "ROW") := rfl
  have parsed : Statement.parse (Keywords.mysql.insert "ROW") "create table \x60order\x60 (a int)" =
      .ok (.createTable ⟨false, false, ⟨none, "order"⟩,
        [.column (.bare "a" (.integer ⟨.int, none, false, false⟩))], [], none⟩) := by
    rw [Keywords.insert_of_reserved .mysql (by decide)]
    exact Parser.eq_ok_of_toOption (by decide +kernel)
  refine ⟨_, parsed, by decide +kernel,
    (parse_write_extended_iff extended parsed (by decide) (by decide)).2 ?_⟩
  rw [Layout.RespectedBy, Keywords.insert_of_reserved .mysql (by decide)]
  decide +kernel

/-- With `ROW` reserved, a table of that name is written without the quotes that it needs. -/
theorem parse_write_extended_row : ∃ ct : CreateTable,
    Keywords.mysql.extend ["ROW"] = .ok (Keywords.mysql.insert "ROW") ∧
    Statement.parse (Keywords.mysql.insert "ROW") "CREATE TABLE \x60row\x60 (a INT)" =
      .ok (.createTable ct) ∧
    (∀ name ∈ ct.looseNames, NameOk name) ∧ (∀ head ∈ ct.heads, HeadOk head) ∧
    ct.layout.write = "CREATE TABLE row (a INT)" ∧
    Statement.parse (Keywords.mysql.insert "ROW") ct.layout.write ≠ .ok (.createTable ct) := by
  have parsed : Statement.parse (Keywords.mysql.insert "ROW") "CREATE TABLE \x60row\x60 (a INT)" =
      .ok (.createTable ⟨false, false, ⟨none, "row"⟩,
        [.column (.bare "a" (.integer ⟨.int, none, false, false⟩))], [], none⟩) := by
    rw [Keywords.insert_of_reserved .mysql (by decide)]
    exact Parser.eq_ok_of_toOption (by decide +kernel)
  refine ⟨_, rfl, parsed, by decide +kernel, by decide +kernel, by decide +kernel, ?_⟩
  rw [Keywords.insert_of_reserved .mysql (by decide)]
  exact Parser.ne_ok_of_toOption (by decide +kernel)

end CreateTable

end TableDdl
