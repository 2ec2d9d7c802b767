import TableDdl.Partition
import TableDdl.Proofs.RoundTrip.DataTypes

/-!
# Codecs of partitioning

Ranges end at an expression or at the word for no end, both of which may stand in one list. A
list of one expression is written as the bound that it was read as.
-/
namespace TableDdl

open Writes

def HashPartition.written (p : HashPartition) : Written := ⟨p.layout.lexemes, [], p.heads⟩

def KeyPartition.written (p : KeyPartition) : Written := .plain p.layout.lexemes

def PartitionBy.written (b : PartitionBy) : Written := ⟨b.layout.lexemes, [], b.heads⟩

def PartitionKind.written (k : PartitionKind) : Written := ⟨k.layout.lexemes, [], k.heads⟩

def SubpartitionKind.written (k : SubpartitionKind) : Written := ⟨k.layout.lexemes, [], k.heads⟩

def PartitionValue.written (v : PartitionValue) : Written := ⟨v.layout.lexemes, [], v.heads⟩

def LessThan.written (b : LessThan) : Written := ⟨b.layout.lexemes, [], b.heads⟩

def PartitionValues.written (v : PartitionValues) : Written := ⟨v.layout.lexemes, [], v.heads⟩

def PartitionOption.written (o : PartitionOption) : Written := ⟨o.layout.lexemes, o.looseNames, []⟩

def PartitionDefinition.written (d : PartitionDefinition) : Written :=
  ⟨d.layout.lexemes, d.looseNames, d.heads⟩

def PartitionDefinition.listWritten (ds : List PartitionDefinition) : Written :=
  ⟨(PartitionDefinition.list ds).lexemes, ds.flatMap PartitionDefinition.looseNames,
    ds.flatMap PartitionDefinition.heads⟩

def Partitioning.written (p : Partitioning) : Written := ⟨p.layout.lexemes, p.looseNames, p.heads⟩

theorem Replay.partitionValue (calls : Nat) :
    Replay calls Grammar.partitionValue true (Exactly PartitionValue.written) := by
  apply (((word "MAXVALUE" true (by decide)).as PartitionValue.maxValue).either
    ((Replay.expression calls).map PartitionValue.expression)).restate
  rintro _ _ (⟨rfl, rfl⟩ | ⟨e, rfl, rfl⟩) <;> rfl

namespace Codec

def linear : Codec Grammar.linear (Exactly fun b => if b then .plain [.word "LINEAR"] else .nil) :=
  flag (.word "LINEAR")

def hashPartition : Codec Grammar.hashPartition (Exactly HashPartition.written) :=
  (linear.map HashPartition.mk).seq (expression.led (.word "HASH")) |>.restate (by
    rintro _ _ ⟨_, e, _, _, ⟨linear, rfl, rfl⟩, rfl, rfl, rfl⟩
    apply Written.ext <;> cases linear <;>
      simp [HashPartition.written, HashPartition.layout, HashPartition.heads])

def keyPartition : Codec Grammar.keyPartition (Exactly KeyPartition.written) :=
  ((linear.map KeyPartition.mk).seq ((integer.setting (.word "ALGORITHM")).given.led
    (.word "KEY"))).seq parenthesizedNames0 |>.restate (by
    rintro _ _ ⟨_, ns, _, _, ⟨_, n, _, _, ⟨linear, rfl, rfl⟩, rfl, rfl, rfl⟩, rfl, rfl, rfl⟩
    apply Written.ext <;> cases linear <;> simp [KeyPartition.written, KeyPartition.layout])

def partitionBy : Codec Grammar.partitionBy (Exactly PartitionBy.written) :=
  (mapTo PartitionBy.expression _ expression).orElse
    (mapTo PartitionBy.columns _ (parenthesizedNames.led (.word "COLUMNS")))

/-- How the text of a key partition opens, with or without the first word. -/
def keyOpenings : List (List Shape) := [[.word "KEY"], [.word "LINEAR", .word "KEY"]]

theorem opens_keyPartition (p : KeyPartition) :
    ∃ ss ∈ keyOpenings, ss <+: p.layout.lexemes.map Lexeme.shape := by
  obtain ⟨linear, algorithm, columns⟩ := p
  cases linear with
  | false => exact ⟨[.word "KEY"], by simp [keyOpenings], by simp [KeyPartition.layout, Lexeme.shape]⟩
  | true =>
    exact ⟨[.word "LINEAR", .word "KEY"], by simp [keyOpenings],
      by simp [KeyPartition.layout, Lexeme.shape]⟩

def subpartitionKind : Codec Grammar.subpartitionKind (Exactly SubpartitionKind.written) :=
  ((hashPartition.map SubpartitionKind.hash).orForeseen (keyPartition.map SubpartitionKind.key)
    keyOpenings (by
      rintro _ _ ⟨p, rfl, rfl⟩
      exact opens_keyPartition p)).restate (by
    rintro _ _ (⟨p, rfl, rfl⟩ | ⟨p, rfl, rfl⟩) <;> rfl)

def partitionKind : Codec Grammar.partitionKind (Exactly PartitionKind.written) :=
  ((hashPartition.map PartitionKind.hash).orForeseen
    ((keyPartition.map PartitionKind.key).either
      (((partitionBy.led (.word "RANGE")).map PartitionKind.range).either
        ((partitionBy.led (.word "LIST")).map PartitionKind.list)))
    (keyOpenings ++ [[.word "RANGE"], [.word "LIST"]]) (by
      rintro _ _ (⟨p, rfl, rfl⟩ | ⟨b, rfl, rfl⟩ | ⟨b, rfl, rfl⟩)
      · obtain ⟨ss, mem, opens⟩ := opens_keyPartition p
        exact ⟨ss, List.mem_append_left _ mem, opens⟩
      · exact ⟨[.word "RANGE"], by simp, by simp [Lexeme.shape]⟩
      · exact ⟨[.word "LIST"], by simp, by simp [Lexeme.shape]⟩)).restate (by
    rintro _ _ (⟨p, rfl, rfl⟩ | ⟨p, rfl, rfl⟩ | ⟨b, rfl, rfl⟩ | ⟨b, rfl, rfl⟩) <;> rfl)

/-- The bound of a plain range is written as the list of one value. -/
theorem written_ofList (vs : List PartitionValue) : (LessThan.ofList vs).written =
    ⟨(Layout.parenthesized (Layout.commaSeparated (vs.map PartitionValue.layout))).lexemes, [],
      vs.flatMap PartitionValue.heads⟩ := by
  unfold LessThan.ofList
  split
  · apply Written.ext <;> simp [LessThan.written, LessThan.layout, LessThan.heads,
      PartitionValue.layout, PartitionValue.heads, Layout.commaSeparated, Layout.joined]
  · rfl

def lessThan : Codec Grammar.lessThan (Exactly LessThan.written) :=
  ((as (.word "MAXVALUE") LessThan.maxValue).either
    ((Replay.codec fun calls => (Replay.partitionValue calls).commaList rfl).map
      LessThan.ofList)).restate (by
    rintro _ _ (⟨rfl, rfl⟩ | ⟨vs, ⟨_, ⟨-, rfl⟩, rfl⟩, rfl⟩)
    · rfl
    · rw [Exactly, written_ofList]
      apply Written.ext <;> simp [Replay.enclosed])

def partitionValues : Codec Grammar.partitionValues (Exactly PartitionValues.written) :=
  ((((lessThan.led ((Mark.word "LESS").after (.word "THAN"))).map PartitionValues.lessThan).either
    ((expressions.after (.word "IN")).map PartitionValues.among)).after (.word "VALUES")).restate (by
    rintro _ _ ⟨_, ⟨bound, rfl, rfl⟩ | ⟨items, ⟨_, ⟨-, rfl⟩, rfl⟩, rfl⟩, rfl⟩
    · rfl
    · apply Written.ext <;>
        simp [PartitionValues.written, PartitionValues.layout, PartitionValues.heads])

/-- An option with one value. -/
def partitionSetting {α : Type} {value : DdlRule α} {text : α → Written} (f : α → PartitionOption)
    (F : Codec value (Exactly text)) (same : ∀ x, (f x).written = text x := by intro; rfl) :
    Alternative (Exactly PartitionOption.written) :=
  ⟨f <$> value, mapTo f _ F same⟩

def partitionOption : Codec Grammar.partitionOption (Exactly PartitionOption.written) :=
  choice (partitionSetting .engine ((looseName.setting (.word "ENGINE")).led (.skip _))) [
    partitionSetting .comment (string.setting (.word "COMMENT")),
    partitionSetting .dataDirectory (string.setting ((Mark.word "DATA").after (.word "DIRECTORY"))),
    partitionSetting .indexDirectory
      (string.setting ((Mark.word "INDEX").after (.word "DIRECTORY"))),
    partitionSetting .maxRows (long.setting (.word "MAX_ROWS")),
    partitionSetting .minRows (long.setting (.word "MIN_ROWS")),
    partitionSetting .tablespace (looseName.setting (.word "TABLESPACE"))]

def partitionDefinition : Codec Grammar.partitionDefinition (Exactly PartitionDefinition.written) :=
  (((identifier.led (.word "PARTITION")).map PartitionDefinition.mk).seq partitionValues.given).seq
    partitionOption.repetition |>.restate (by
    rintro _ _ ⟨_, options, _, _, ⟨_, values, _, _, ⟨name, rfl, rfl⟩, rfl, rfl, rfl⟩, rfl, rfl, rfl⟩
    apply Written.ext <;>
      simp [PartitionDefinition.written, PartitionDefinition.layout, PartitionDefinition.looseNames,
        PartitionDefinition.heads, Layout.appended, List.flatMap_map, PartitionValues.written])

def partitionDefinitions : Codec
    (Grammar.parenthesized (Grammar.commaList Grammar.partitionDefinition))
    (fun ds t => ds ≠ [] ∧ t = PartitionDefinition.listWritten ds) :=
  partitionDefinition.commas.parenthesized.restate (by
    rintro ds _ ⟨_, ⟨_, ⟨some, rfl⟩, rfl⟩, rfl⟩
    refine ⟨some, ?_⟩
    apply Written.ext <;> simp [PartitionDefinition.listWritten, PartitionDefinition.list])

/-- Without definitions there are no parentheses. -/
def definitions0 : Codec ((·.getD []) <$> (Grammar.parenthesized
      (Grammar.commaList Grammar.partitionDefinition)).optional)
    (Exactly fun ds => if !ds.isEmpty then PartitionDefinition.listWritten ds else .nil) :=
  (partitionDefinitions.optional.map _).restate (by
    rintro _ t ⟨o, text, rfl⟩
    cases o with
    | none => exact text
    | some ds =>
      obtain ⟨some, rfl⟩ := text
      simp [Exactly, some])

def partitioning : Codec Grammar.partitioning (Exactly Partitioning.written) :=
  ((((partitionKind.map Partitioning.mk).seq (integer.led (.word "PARTITIONS")).given).seq
    (subpartitionKind.led ((Mark.word "SUBPARTITION").after (.word "BY"))).given).seq
    (integer.led (.word "SUBPARTITIONS")).given).seq definitions0 |>.restate (by
    rintro _ _ ⟨_, ds, _, _, ⟨_, n, _, _, ⟨_, s, _, _, ⟨_, m, _, _, ⟨kind, rfl, rfl⟩, rfl, rfl, rfl⟩,
      rfl, rfl, rfl⟩, rfl, rfl, rfl⟩, rfl, rfl, rfl⟩
    apply Written.ext <;> cases ds <;>
      simp [Partitioning.written, Partitioning.layout, Partitioning.looseNames, Partitioning.heads,
        PartitionKind.written, SubpartitionKind.written, PartitionDefinition.listWritten])

end Codec
end TableDdl
