import TableDdl.Proofs.RoundTrip.Alterations
import TableDdl.Proofs.RoundTrip.Parsing
import TableDdl.Proofs.Statement.Spacing
import TableDdl.Statement

/-!
# Written table alterations

Changes to the table are written before changes to its partitions, so a list of partition names
may come to stand before a part that it was not read with. Where the first word of that part is
reserved, the written alteration is parsed as the same alteration; where it is not, the list of
names takes it.
-/
namespace TableDdl

def Alteration.layout : Alteration → Layout
  | .option o => o.layout
  | .partition o => o.layout

theorem Alteration.lexemes_written (a : Alteration) : a.written.lexemes = a.layout.lexemes := by
  cases a <;> rfl

namespace AlterTable

open Alteration

variable {t : AlterTable}

/-- The parts in the order in which they are written. -/
def alterations (t : AlterTable) : List Alteration :=
  t.options.map .option ++ t.partitionOptions.map .partition

/-- After a list of names there is a part with a reserved first word, or none. -/
def NamesApart (t : AlterTable) : Prop :=
  t.partitionOptions.IsChain fun o o' =>
    o.endsInNames = true → Keywords.mysql.isReserved o'.firstWord = true

instance : Decidable t.NamesApart :=
  inferInstanceAs (Decidable (t.partitionOptions.IsChain fun o o' =>
    o.endsInNames = true → Keywords.mysql.isReserved o'.firstWord = true))

theorem ofParts_alterations (t : AlterTable) : ofParts t.name t.alterations = t := by
  simp [ofParts, alterations, List.filterMap_map]

theorem mem_of_mem_alterations {name : TableName} {parts : List Alteration} {a : Alteration}
    (h : a ∈ (ofParts name parts).alterations) : a ∈ parts := by
  rcases List.mem_append.1 h with h | h
  · obtain ⟨o, mem, rfl⟩ := List.mem_map.1 h
    obtain ⟨part, mem, same⟩ := List.mem_filterMap.1 mem
    cases part <;> simp_all
  · obtain ⟨o, mem, rfl⟩ := List.mem_map.1 h
    obtain ⟨part, mem, same⟩ := List.mem_filterMap.1 mem
    cases part <;> simp_all

theorem apart_alterations (apart : t.NamesApart) : Apart t.alterations := by
  refine List.isChain_append.2 ⟨?_, (List.isChain_map _).2 apart, ?_⟩
  · have free : t.options.Pairwise fun o o' => (Alteration.option o).endsInNames = true →
        (Alteration.option o').startsReserved = true := List.pairwise_of_forall fun _ _ => nofun
    exact (List.isChain_map _).2 free.isChain
  · intro a ha b _ ends
    obtain ⟨o, -, rfl⟩ := List.mem_map.1 (List.mem_of_getLast? ha)
    cases ends

theorem parts_eq (t : AlterTable) : t.parts = t.alterations.map Alteration.layout := by
  simp [parts, alterations, Function.comp_def, Alteration.layout]

theorem lexemes_layout (t : AlterTable) : t.layout.lexemes =
    ([.word "ALTER", .word "TABLE"] ++ t.name.layout.lexemes) ++ listed t.alterations := by
  rw [AlterTable.layout, parts_eq]
  cases t.alterations with
  | nil => simp [listed]
  | cons a as =>
    simp [listed, Layout.commaSeparated, Layout.lexemes_joined_cons, afterComma, List.flatMap_map,
      lexemes_written]

theorem good_alterations (names : ∀ name ∈ t.looseNames, NameOk name)
    (heads : ∀ head ∈ t.heads, HeadOk head) : ∀ a ∈ t.alterations, a.written.Good := by
  intro a ha
  rcases List.mem_append.1 ha with ha | ha
  · obtain ⟨o, mem, rfl⟩ := List.mem_map.1 ha
    exact ⟨fun name h => names name (List.mem_append_left _ (List.mem_flatMap.2 ⟨o, mem, h⟩)),
      fun head h => heads head (List.mem_append_left _ (List.mem_flatMap.2 ⟨o, mem, h⟩))⟩
  · obtain ⟨o, mem, rfl⟩ := List.mem_map.1 ha
    exact ⟨fun name h => names name (List.mem_append_right _ (List.mem_flatMap.2 ⟨o, mem, h⟩)),
      fun head h => heads head (List.mem_append_right _ (List.mem_flatMap.2 ⟨o, mem, h⟩))⟩

/-- The words before the parts, and the name of the table. -/
def nameCodec : Codec (Grammar.literal "ALTER" *> Grammar.literal "TABLE" *> Grammar.tableName)
    (Writes.Exactly fun n => .plain [.word "ALTER", .word "TABLE"] ++ .plain n.layout.lexemes) :=
  Codec.tableName.led ((Mark.word "ALTER").after (.word "TABLE"))

/-- No part goes on with a name, and none starts with a number. -/
theorem joins_nameCodec (ends : Bool) :
    (Codec.alteration ends).edges.refusedBy nameCodec.edges.follow = true ∧
      nameCodec.edges.joins (Edges.andThen ⟨(Codec.alteration ends).edges.opens, [], true⟩
        ⟨[none, some (.symbol ",")], [], true⟩) = true := by
  cases ends <;> decide +kernel

section Name

variable {calls depth : Nat} {name : TableName} {text : Written} {as : List Alteration}
  (hname : (Grammar.literal "ALTER" *> Grammar.literal "TABLE" *> Grammar.tableName).ReadsBack calls
    depth nameCodec.edges name text)
  (reads : ∀ a ∈ as, a.Reads calls depth)

include hname reads

theorem takes_alterTable (goodName : text.Good) (good : ∀ a ∈ as, a.written.Good)
    (apart : Apart as) (pos : Nat) :
    Grammar.alterTable.Takes calls depth pos (text.lexemes ++ listed as) [] (ofParts name as) := by
  have follow : Avoids nameCodec.edges.follow (tokensOf (listed as) ++ []) := by
    cases as with
    | nil => exact .nil _
    | cons a as =>
      have own := reads a List.mem_cons_self
      have writable := own.sound.writable (good a List.mem_cons_self)
      rw [listed, tokensOf_append, List.append_assoc]
      exact Edges.avoids_of_refusedBy (joins_nameCodec a.endsInNames).1 own.fits writable
  have named := (hname.takes goodName pos _ follow).map ofParts
  exact (named.both (takes_listed apart reads good _)).map fun p => p.1 p.2

theorem tame_alterTable : Tame (text.lexemes ++ listed as) := by
  cases as with
  | nil => simpa [listed] using hname.sound.2
  | cons a as =>
    obtain ⟨own, later⟩ := List.forall_mem_cons.1 reads
    exact Edges.tame_append (joins_nameCodec a.endsInNames).2 hname.fits
      ((fits_part own).append (fits_afterComma as)) hname.sound.2
      (tame_part own (tame_afterComma later))

end Name

/-- An alteration that was parsed is read back from its written form if no list of partition names
comes before a part whose first word may be a name. -/
theorem parse_write_of_namesApart {sql : String}
    (parsed : AlterTable.parse Keywords.mysql sql = .ok t)
    (names : ∀ name ∈ t.looseNames, NameOk name) (heads : ∀ head ∈ t.heads, HeadOk head)
    (apart : t.NamesApart) : AlterTable.parse Keywords.mysql t.layout.write = .ok t := by
  obtain ⟨ts, mid, cut, read, -⟩ := Parser.read_of_parse parsed
  obtain ⟨_, parts, mid', first, second, rfl⟩ := Rule.seq_matched_iff.1 read
  obtain ⟨name, named, rfl⟩ := Rule.map_matched_iff.1 first
  have scanned : Scanned Keywords.mysql (Cursor.start ts).rest := scanned_of_tokenize cut
  obtain ⟨_, rfl, hname⟩ := nameCodec.written (by decide +kernel) scanned named
  let t : AlterTable := ofParts name parts
  have read : ∀ a ∈ parts, a.Reads Parser.calls mid'.depth :=
    reads_of_parts (scanned_of_read scanned named) second
  rw [depth_of_read named] at read
  have reads : ∀ a ∈ t.alterations, a.Reads Parser.calls 0 := fun a ha =>
    read a (mem_of_mem_alterations ha)
  have good := good_alterations names heads
  -- In the written order, table changes first, no list of names goes on into the next change.
  have takes := takes_alterTable hname reads ⟨nofun, nofun⟩ good (apart_alterations apart) 0
  have tame := tame_alterTable hname reads
  have writable : ∀ l ∈ t.layout.lexemes, l.Writable := by
    rw [lexemes_layout]
    intro l hl
    rcases List.mem_append.1 hl with hl | hl
    · exact hname.sound.writable ⟨nofun, nofun⟩ l hl
    · exact writable_listed reads good l hl
  have same : ofParts name t.alterations = t := ofParts_alterations t
  have lexemes : t.layout.lexemes = (Written.plain [.word "ALTER", .word "TABLE"] ++
      Written.plain name.layout.lexemes).lexemes ++ listed t.alterations := lexemes_layout t
  rw [same, ← lexemes] at takes
  rw [← lexemes] at tame
  exact Parser.parse_write (AlterTable.spaced_layout t) writable tame takes

/-- Two changes to partitions of which the first ends in names, apart by the second's word. -/
theorem parse_write_of_namesApart_reordered : ∃ t : AlterTable,
    AlterTable.parse Keywords.mysql "alter table t drop partition p, drop c, check partition q" =
      .ok t ∧
    t.layout.write = "ALTER TABLE t DROP COLUMN c, DROP PARTITION p, CHECK PARTITION q" ∧
    AlterTable.parse Keywords.mysql t.layout.write = .ok t := by
  have parsed : AlterTable.parse Keywords.mysql
      "alter table t drop partition p, drop c, check partition q" =
      .ok ⟨⟨none, "t"⟩, [.dropColumn "c"],
        [.dropPartition ["p"], .maintain .check (.names ["q"])]⟩ :=
    Parser.eq_ok_of_toOption (by decide +kernel)
  exact ⟨_, parsed, by decide +kernel, parse_write_of_namesApart parsed (by decide +kernel)
    (by decide +kernel) (by decide +kernel)⟩

/-- The name that is dropped comes to stand before `COALESCE`, which may be a name as well. -/
theorem parse_write_swallowed : ∃ t : AlterTable,
    AlterTable.parse Keywords.mysql
      "ALTER TABLE t DROP PARTITION p, DROP COLUMN c, COALESCE PARTITION 1" = .ok t ∧
    (∀ name ∈ t.looseNames, NameOk name) ∧ (∀ head ∈ t.heads, HeadOk head) ∧
    t.layout.write = "ALTER TABLE t DROP COLUMN c, DROP PARTITION p, COALESCE PARTITION 1" ∧
    AlterTable.parse Keywords.mysql t.layout.write ≠ .ok t := by
  have parsed : AlterTable.parse Keywords.mysql
      "ALTER TABLE t DROP PARTITION p, DROP COLUMN c, COALESCE PARTITION 1" =
      .ok ⟨⟨none, "t"⟩, [.dropColumn "c"], [.dropPartition ["p"], .coalescePartition 1]⟩ :=
    Parser.eq_ok_of_toOption (by decide +kernel)
  exact ⟨_, parsed, by decide +kernel, by decide +kernel, by decide +kernel,
    Parser.ne_ok_of_toOption (by decide +kernel)⟩

end AlterTable
end TableDdl
