import TableDdl.Proofs.Expression.Carries
import TableDdl.Proofs.Statement.Renamed

/-!
# Names in statements

The rules for statements carry names: each takes over the names of its parts, and where it puts
parts together in a way of its own, that way does not look at names.
-/
namespace TableDdl.Grammar

open Relator

variable {β : Type} {keywords : Keywords} {f : String → String} {calls : Nat}

theorem carries_looseName : looseName.Carries keywords f calls (SameUnder f) :=
  .orElse .identifier (.fixed rfl)

theorem carries_collate : collate.optional.Carries keywords f calls (SameUnder (Option.map f)) :=
  .optional (.seqRight (.of_nameless rfl) carries_looseName)

theorem carries_tableName :
    tableName.Carries keywords f calls (SameUnder (TableName.renamed f)) := by
  have second : Rule.Carries keywords f calls (SameUnder (Option.map f))
      (literal "." *> identifier).optional :=
    .optional (.seqRight (.of_nameless rfl) .identifier)
  refine .last (.first .identifier ?_) second
  rintro first (_ | second) <;> rfl

theorem carries_charset? : charset?.Carries keywords f calls (SameUnder (Option.map f)) :=
  .optional (.seqRight (.of_nameless rfl) carries_looseName)

theorem carries_textType : textType.Carries keywords f calls (SameUnder (TextType.renamed f)) := by
  refine .last (.next (.next (.next (.first (.kept rfl) ?_) (.kept rfl)) (.kept rfl))
    carries_charset?) carries_collate
  simp [TextType.renamed]

theorem carries_choiceType :
    choiceType.Carries keywords f calls (SameUnder (ChoiceType.renamed f)) := by
  refine .last (.next (.next (.first (.kept rfl) ?_) (.kept rfl)) carries_charset?) carries_collate
  simp [ChoiceType.renamed]

theorem carries_dataType : dataType.Carries keywords f calls (SameUnder (DataType.renamed f)) := by
  refine .oneOf (.fixed rfl) ?_
  simp only [List.forall_mem_cons, List.not_mem_nil, false_implies, implies_true, and_true]
  exact ⟨.fixed rfl, .fixed rfl, .fixed rfl,
    carries_textType.only fun _ => rfl, .fixed rfl, carries_choiceType.only fun _ => rfl,
    .fixed rfl, .fixed rfl, .fixed rfl⟩

theorem carries_indexOption :
    indexOption.Carries keywords f calls (SameUnder (IndexOption.renamed f)) := by
  have parser : Rule.Carries keywords f calls (SameUnder (IndexOption.renamed f))
      (IndexOption.withParser <$> (literal "WITH" *> literal "PARSER" *> identifier)) :=
    .only (.seqRight (.of_nameless rfl) .identifier) fun _ => rfl
  refine .oneOf (.fixed rfl) ?_
  simp only [List.forall_mem_cons, List.not_mem_nil, false_implies, implies_true, and_true]
  exact ⟨.fixed rfl, parser, .fixed rfl, .fixed rfl, .fixed rfl, .fixed rfl⟩

theorem carries_keyPart : keyPart.Carries keywords f calls (SameUnder (KeyPart.renamed f)) := by
  have column : Rule.Carries keywords f calls (SameUnder (KeyPartTarget.renamed f))
      (KeyPartTarget.column <$> identifier <*> (parenthesized integer).optional) :=
    .last (.first .identifier fun _ _ => rfl) (.kept rfl)
  have target : Rule.Carries keywords f calls (SameUnder (KeyPartTarget.renamed f))
      (KeyPartTarget.column <$> identifier <*> (parenthesized integer).optional
        <|> KeyPartTarget.expression <$> parenthesized expression) :=
    column.orElse (carries_expression.parenthesized.only fun _ => rfl)
  exact .last (target.first fun _ _ => rfl) (.kept rfl)

theorem carries_keyParts :
    keyParts.Carries keywords f calls (SameUnder (List.map (KeyPart.renamed f))) :=
  carries_keyPart.commaList.parenthesized

theorem carries_constraint :
    constraint.Carries keywords f calls (SameUnder (Constraint.renamed f)) :=
  .only (.seqRight (.of_nameless rfl) (.optional .identifier)) fun _ => rfl

theorem carries_reference :
    reference.Carries keywords f calls (SameUnder (Reference.renamed f)) := by
  have add (r : Reference) (t : Reference.Trigger) : (r.add t).renamed f = (r.renamed f).add t := by
    cases t <;> rfl
  have ofParts (table : TableName) (parts : List KeyPart) (matchType : Option MatchType)
      (triggers : List Reference.Trigger) :
      (Reference.ofParts table parts matchType triggers).renamed f =
        Reference.ofParts (table.renamed f) (parts.map (KeyPart.renamed f)) matchType triggers := by
    simp only [Reference.ofParts]
    rw [← List.foldl_hom (Reference.renamed f) (fun r t => (add r t).symm)]
    rfl
  exact .last (.next (.next (.first (.seqRight (.of_nameless rfl) carries_tableName) ofParts)
    carries_keyParts) (.kept rfl)) (.kept rfl)

/-- A constraint is still to be added to the value. -/
def Constrained (f : String → String) (ψ : β → β) :
    (Option Constraint → β) → (Option Constraint → β) → Prop :=
  Shared (Through (Option.map (Constraint.renamed f)) (Becomes ψ))

theorem carries_checkBody : checkBody.Carries keywords f calls
    (Constrained f (Check.renamed f)) :=
  .next (.first (.seqRight (.of_nameless rfl) carries_expression.parenthesized) fun _ _ _ => rfl)
    (.kept rfl)

theorem carries_check : check.Carries keywords f calls (SameUnder (Check.renamed f)) :=
  .seq (carries_constraint.optional.map fun _ _ same _ _ body => (body.apply same).sameUnder)
    carries_checkBody

theorem carries_indexOptions : indexOption.many.Carries keywords f calls
    (SameUnder (List.map (IndexOption.renamed f))) :=
  carries_indexOption.many

theorem carries_primaryKey : primaryKey.Carries keywords f calls
    (Constrained f (KeyDefinition.renamed f)) :=
  .next (.next (.first (.kept rfl) fun _ _ _ _ => rfl) carries_keyParts) carries_indexOptions

theorem carries_uniqueKey : uniqueKey.Carries keywords f calls
    (Constrained f (KeyDefinition.renamed f)) := by
  refine .next (.next (.next (.first (.seqRight (.of_nameless rfl) (.optional .identifier)) ?_)
    (.kept rfl)) carries_keyParts) carries_indexOptions
  simp [KeyDefinition.renamed]

theorem carries_foreignKey : foreignKey.Carries keywords f calls
    (Constrained f (KeyDefinition.renamed f)) := by
  refine .next (.next (.first (.seqRight (.of_nameless rfl) (.optional .identifier)) ?_)
    (.parenthesized (.commaList .identifier))) carries_reference
  simp [KeyDefinition.renamed]

theorem carries_specialIndex :
    specialIndex.Carries keywords f calls (SameUnder (KeyDefinition.renamed f)) := by
  refine .last (.next (.next (.first (.kept rfl) ?_)
    (.seqRight (.of_nameless rfl) (.optional .identifier))) carries_keyParts) carries_indexOptions
  simp [KeyDefinition.renamed]

theorem carries_simpleIndex :
    simpleIndex.Carries keywords f calls (SameUnder (KeyDefinition.renamed f)) := by
  refine .last (.next (.next (.first (.seqRight (.of_nameless rfl) (.optional .identifier)) ?_)
    (.kept rfl)) carries_keyParts) carries_indexOptions
  simp [KeyDefinition.renamed]

theorem carries_constrained :
    constrained.Carries keywords f calls (SameUnder (KeyDefinition.renamed f)) := by
  have check : Rule.Carries keywords f calls (Constrained f (KeyDefinition.renamed f))
      ((KeyDefinition.check ∘ ·) <$> checkBody) :=
    carries_checkBody.map fun _ _ ⟨body, here, there⟩ => ⟨KeyDefinition.check ∘ body,
      fun c => congrArg KeyDefinition.check (here c), fun c => congrArg KeyDefinition.check (there c)⟩
  refine .seq (carries_constraint.map fun _ _ same _ _ body =>
    (body.apply (sameUnder_some same)).sameUnder) (.oneOf carries_primaryKey ?_)
  simp only [List.forall_mem_cons, List.not_mem_nil, false_implies, implies_true, and_true]
  exact ⟨carries_uniqueKey, carries_foreignKey, check⟩

theorem carries_keyDefinition :
    keyDefinition.Carries keywords f calls (SameUnder (KeyDefinition.renamed f)) := by
  have bare {r : DdlRule (Option Constraint → KeyDefinition)}
      (h : r.Carries keywords f calls (Constrained f (KeyDefinition.renamed f))) :
      Rule.Carries keywords f calls (SameUnder (KeyDefinition.renamed f)) ((· none) <$> r) :=
    h.map fun _ _ key => (key.apply rfl).sameUnder
  refine .oneOf carries_constrained ?_
  simp only [List.forall_mem_cons, List.not_mem_nil, false_implies, implies_true, and_true]
  exact ⟨bare carries_primaryKey, bare carries_uniqueKey, bare carries_foreignKey,
    carries_specialIndex, carries_check.only fun _ => rfl, carries_simpleIndex⟩

theorem carries_defaultValue :
    defaultValue.Carries keywords f calls (SameUnder (DefaultValue.renamed f)) := by
  have items : Rule.Carries keywords f calls (SameUnder (DefaultValue.renamed f))
      (DefaultValue.array <$> parenthesized (commaList expression)) :=
    carries_expression.commaList.parenthesized.only fun _ => rfl
  refine .oneOf (.fixed rfl) ?_
  simp only [List.forall_mem_cons, List.not_mem_nil, false_implies, implies_true, and_true]
  exact ⟨.fixed rfl, .fixed rfl, .fixed rfl, items, .fixed rfl⟩

theorem carries_generatedAttributes :
    generatedAttributes.Carries keywords f calls (SameUnder (GeneratedAttributes.renamed f)) := by
  refine .last (.next (.next (.next (.next (.next (.next (.next
    (.first (.seqRight (.of_nameless rfl) carries_expression.parenthesized) ?_) (.kept rfl))
    (.kept rfl)) (.kept rfl)) (.kept rfl)) (.kept rfl)) (.kept rfl)) carries_reference.optional)
    carries_check.optional
  simp [GeneratedAttributes.renamed]

theorem carries_plainAttributes :
    plainAttributes.Carries keywords f calls (SameUnder (PlainAttributes.renamed f)) := by
  have default : Rule.Carries keywords f calls (SameUnder (Option.map (DefaultValue.renamed f)))
      (literal "DEFAULT" *> defaultValue).optional :=
    .optional (.seqRight (.of_nameless rfl) carries_defaultValue)
  refine .last (.next (.next (.next (.next (.next (.next (.next (.next (.next (.next (.next (.next
    (.next (.first (.kept rfl) ?_) default) (.kept rfl)) (.kept rfl)) (.kept rfl)) (.kept rfl))
    (.kept rfl)) (.kept rfl)) carries_collate) (.kept rfl)) (.kept rfl)) (.kept rfl)) (.kept rfl))
    carries_reference.optional) carries_check.optional
  simp [PlainAttributes.renamed]

/-- The attributes of a column, to which its name, type and collation are still to be added. -/
theorem carries_columnBody : columnBody.Carries keywords f calls
    (Shared (Through f (Through (DataType.renamed f) (Through (Option.map f)
      (Becomes (Column.renamed f)))))) := by
  refine .orElse (carries_generatedAttributes.first ?_) (carries_plainAttributes.first ?_)
  · simp [Column.renamed]
  · simp [Column.renamed, PlainAttributes.renamed, Option.map_or]

theorem carries_column : column.Carries keywords f calls (SameUnder (Column.renamed f)) :=
  .seq (.seq (.seq (.map .identifier fun _ _ name _ _ type _ _ collation _ _ body =>
    (((body.apply name).apply type).apply collation).sameUnder) carries_dataType) carries_collate)
    carries_columnBody

theorem carries_hashPartition :
    hashPartition.Carries keywords f calls (SameUnder (HashPartition.renamed f)) := by
  exact .last (.first (.kept rfl) fun _ _ => rfl)
    (.seqRight (.of_nameless rfl) carries_expression.parenthesized)

theorem carries_keyPartition :
    keyPartition.Carries keywords f calls (SameUnder (KeyPartition.renamed f)) := by
  exact .last (.next (.first (.kept rfl) fun _ _ _ => rfl) (.kept rfl))
    (.parenthesized (.commaList0 .identifier))

theorem carries_partitionBy :
    partitionBy.Carries keywords f calls (SameUnder (PartitionBy.renamed f)) := by
  have columns : Rule.Carries keywords f calls (SameUnder (List.map f))
      (literal "COLUMNS" *> parenthesized (commaList identifier)) :=
    .seqRight (.of_nameless rfl) (.parenthesized (.commaList .identifier))
  exact .orElse (carries_expression.parenthesized.only fun _ => rfl) (columns.only fun _ => rfl)

theorem carries_partitionKind :
    partitionKind.Carries keywords f calls (SameUnder (PartitionKind.renamed f)) := by
  have basis (word : String) : Rule.Carries keywords f calls (SameUnder (PartitionBy.renamed f))
      (literal word *> partitionBy) :=
    .seqRight (.of_nameless rfl) carries_partitionBy
  refine .oneOf (carries_hashPartition.only fun _ => rfl) ?_
  simp only [List.forall_mem_cons, List.not_mem_nil, false_implies, implies_true, and_true]
  exact ⟨carries_keyPartition.only fun _ => rfl, (basis _).only fun _ => rfl,
    (basis _).only fun _ => rfl⟩

theorem carries_subpartitionKind :
    subpartitionKind.Carries keywords f calls (SameUnder (SubpartitionKind.renamed f)) :=
  .orElse (carries_hashPartition.only fun _ => rfl) (carries_keyPartition.only fun _ => rfl)

theorem carries_partitionValue :
    partitionValue.Carries keywords f calls (SameUnder (PartitionValue.renamed f)) :=
  .orElse (.fixed rfl) (carries_expression.only fun _ => rfl)

theorem carries_lessThan : lessThan.Carries keywords f calls (SameUnder (LessThan.renamed f)) := by
  have ofList (vs : List PartitionValue) :
      (LessThan.ofList vs).renamed f = LessThan.ofList (vs.map (PartitionValue.renamed f)) := by
    match vs with
    | [] | [.maxValue] | [.expression _] | .maxValue :: _ :: _ | .expression _ :: _ :: _ =>
      simp [LessThan.ofList, LessThan.renamed, PartitionValue.renamed]
  exact .orElse (.fixed rfl) (carries_partitionValue.commaList.parenthesized.only ofList)

theorem carries_partitionValues :
    partitionValues.Carries keywords f calls (SameUnder (PartitionValues.renamed f)) := by
  have bound : Rule.Carries keywords f calls (SameUnder (PartitionValues.renamed f))
      (PartitionValues.lessThan <$> (literal "LESS" *> literal "THAN" *> lessThan)) :=
    .only (.seqRight (.of_nameless rfl) carries_lessThan) fun _ => rfl
  have items : Rule.Carries keywords f calls (SameUnder (PartitionValues.renamed f))
      (PartitionValues.among <$> (literal "IN" *> parenthesized (commaList expression))) :=
    .only (.seqRight (.of_nameless rfl) carries_expression.commaList.parenthesized) fun _ => rfl
  exact .seqRight (.of_nameless rfl) (bound.orElse items)

theorem carries_partitionOption :
    partitionOption.Carries keywords f calls (SameUnder (PartitionOption.renamed f)) := by
  have engine : Rule.Carries keywords f calls (SameUnder (PartitionOption.renamed f))
      (PartitionOption.engine <$> ((literal "STORAGE").optional
        *> setting (literal "ENGINE") looseName)) :=
    .only (.seqRight (.of_nameless rfl) (.setting rfl carries_looseName)) fun _ => rfl
  have tablespace : Rule.Carries keywords f calls (SameUnder (PartitionOption.renamed f))
      (PartitionOption.tablespace <$> setting (literal "TABLESPACE") looseName) :=
    .only (.setting rfl carries_looseName) fun _ => rfl
  refine .oneOf engine ?_
  simp only [List.forall_mem_cons, List.not_mem_nil, false_implies, implies_true, and_true]
  exact ⟨.fixed rfl, .fixed rfl, .fixed rfl, .fixed rfl, .fixed rfl, tablespace⟩

theorem carries_partitionDefinition :
    partitionDefinition.Carries keywords f calls (SameUnder (PartitionDefinition.renamed f)) := by
  exact .last (.next (.first (.seqRight (.of_nameless rfl) .identifier) fun _ _ _ => rfl)
    carries_partitionValues.optional) carries_partitionOption.many

theorem carries_partitioning :
    partitioning.Carries keywords f calls (SameUnder (Partitioning.renamed f)) := by
  have subpartitions : Rule.Carries keywords f calls
      (SameUnder (Option.map (SubpartitionKind.renamed f)))
      (literal "SUBPARTITION" *> literal "BY" *> subpartitionKind).optional :=
    .optional (.seqRight (.of_nameless rfl) carries_subpartitionKind)
  have definitions : Rule.Carries keywords f calls
      (SameUnder (List.map (PartitionDefinition.renamed f)))
      ((·.getD []) <$> (parenthesized (commaList partitionDefinition)).optional) :=
    carries_partitionDefinition.commaList.parenthesized.optional.map sameUnder_getD
  refine .last (.next (.next (.next (carries_partitionKind.first ?_) (.kept rfl)) subpartitions)
    (.kept rfl)) definitions
  simp [Partitioning.renamed]

theorem carries_tableOption :
    tableOption.Carries keywords f calls (SameUnder (TableOption.renamed f)) := by
  have named {g : String → TableOption} (renamed : ∀ name, (g name).renamed f = g (f name))
      {r : DdlRule String} (h : r.Carries keywords f calls (SameUnder f)) :
      Rule.Carries keywords f calls (SameUnder (TableOption.renamed f)) (g <$> r) :=
    h.only renamed
  have perhaps {key : DdlRule String} (none : key.nameless = true) :
      (perhapsDefault (setting key looseName)).Carries keywords f calls (SameUnder f) :=
    .seqRight (.of_nameless rfl) (.setting none carries_looseName)
  have tablespace : tablespaceOption.Carries keywords f calls (SameUnder (TableOption.renamed f)) :=
    .last (.first (.setting rfl carries_looseName) fun _ _ => rfl) (.kept rfl)
  have tables : Rule.Carries keywords f calls (SameUnder (List.map f))
      (setting (literal "UNION") (parenthesized (commaList0 identifier))) :=
    .setting rfl (.parenthesized (.commaList0 .identifier))
  refine .oneOf (.fixed rfl) ?_
  simp only [List.forall_mem_cons, List.not_mem_nil, false_implies, implies_true, and_true]
  exact ⟨.fixed rfl, .fixed rfl, named (fun _ => rfl) (perhaps rfl), .fixed rfl,
    named (fun _ => rfl) (perhaps rfl), .fixed rfl, .fixed rfl, .fixed rfl, .fixed rfl, .fixed rfl,
    .fixed rfl, .fixed rfl, named (fun _ => rfl) (.setting rfl carries_looseName), .fixed rfl,
    .fixed rfl, .fixed rfl, .fixed rfl, .fixed rfl, .fixed rfl, .fixed rfl, .fixed rfl, .fixed rfl,
    .fixed rfl, .fixed rfl, .fixed rfl, tablespace,
    tables.only fun _ => rfl⟩

theorem carries_tableOptions :
    tableOptions.Carries keywords f calls (SameUnder (List.map (TableOption.renamed f))) :=
  .many (.seqRight (.of_nameless rfl) carries_tableOption)

theorem carries_definition :
    definition.Carries keywords f calls (SameUnder (Definition.renamed f)) :=
  .orElse (carries_keyDefinition.only fun _ => rfl) (carries_column.only fun _ => rfl)

theorem carries_createTable :
    createTable.Carries keywords f calls (SameUnder (CreateTable.renamed f)) := by
  refine .last (.next (.next (.next (.next (.first (.kept rfl) ?_) (.kept rfl)) carries_tableName)
    carries_definition.commaList0.parenthesized) carries_tableOptions)
    (.optional (.seqRight (.of_nameless rfl) carries_partitioning))
  simp [CreateTable.renamed]

theorem carries_columnPosition : columnPosition.optional.Carries keywords f calls
    (SameUnder (Option.map (ColumnPosition.renamed f))) :=
  .optional (.orElse (.fixed rfl)
    (.only (.seqRight (.of_nameless rfl) .identifier) fun _ => rfl))

theorem carries_addColumn :
    addColumn.Carries keywords f calls (SameUnder (AlterOption.renamed f)) :=
  .seqRight (.of_nameless rfl) (.orElse (carries_column.commaList.parenthesized.only fun _ => rfl)
    (.last (carries_column.first fun _ _ => rfl) carries_columnPosition))

theorem carries_add : add.Carries keywords f calls (SameUnder (AlterOption.renamed f)) :=
  .seqRight (.of_nameless rfl)
    (.orElse (carries_keyDefinition.only fun _ => rfl) carries_addColumn)

/-- A part of a statement that is a name after other words. -/
theorem carries_named {g : String → AlterOption}
    (renamed : ∀ name, (g name).renamed f = g (f name)) {key : DdlRule β}
    (none : key.nameless = true) :
    Rule.Carries keywords f calls (SameUnder (AlterOption.renamed f)) (g <$> (key *> identifier)) :=
  .only (.seqRight (.of_nameless none) .identifier) renamed

theorem carries_drop : drop.Carries keywords f calls (SameUnder (AlterOption.renamed f)) := by
  refine .seqRight (.of_nameless rfl) (.oneOf (carries_named (fun _ => rfl) rfl) ?_)
  simp only [List.forall_mem_cons, List.not_mem_nil, false_implies, implies_true, and_true]
  exact ⟨.fixed rfl, carries_named (fun _ => rfl) rfl, carries_named (fun _ => rfl) rfl,
    carries_named (fun _ => rfl) rfl⟩

theorem carries_alterColumnAction :
    alterColumnAction.Carries keywords f calls (SameUnder (AlterColumnAction.renamed f)) := by
  have value : Rule.Carries keywords f calls (SameUnder (DefaultValue.renamed f))
      (literal "SET" *> literal "DEFAULT" *> defaultValue) :=
    .seqRight (.of_nameless rfl) carries_defaultValue
  refine .oneOf (value.only fun _ => rfl) ?_
  simp only [List.forall_mem_cons, List.not_mem_nil, false_implies, implies_true, and_true]
  exact ⟨.fixed rfl, .fixed rfl, .fixed rfl⟩

theorem carries_alter : alter.Carries keywords f calls (SameUnder (AlterOption.renamed f)) :=
  .seqRight (.of_nameless rfl) (.orElse
    (.last (.first (.seqRight (.of_nameless rfl) .identifier) fun _ _ => rfl) (.kept rfl)) (.orElse
    (.last (.first (.seqRight (.of_nameless rfl) .identifier) fun _ _ => rfl) (.kept rfl))
    (.last (.first (.seqRight (.of_nameless rfl) .identifier) fun _ _ => rfl)
      carries_alterColumnAction)))

theorem carries_modify : modify.Carries keywords f calls (SameUnder (AlterOption.renamed f)) :=
  .last (.first (.seqRight (.of_nameless rfl) carries_column) fun _ _ => rfl) carries_columnPosition

theorem carries_change : change.Carries keywords f calls (SameUnder (AlterOption.renamed f)) :=
  .last (.next (.first (.seqRight (.of_nameless rfl) .identifier) fun _ _ _ => rfl) carries_column)
    carries_columnPosition

theorem carries_rename : rename.Carries keywords f calls (SameUnder (AlterOption.renamed f)) := by
  have newName : Rule.Carries keywords f calls (SameUnder f) (literal "TO" *> identifier) :=
    .seqRight (.of_nameless rfl) .identifier
  exact .seqRight (.of_nameless rfl) (.orElse
    (.last (.first (.seqRight (.of_nameless rfl) .identifier) fun _ _ => rfl) newName) (.orElse
    (.last (.first (.seqRight (.of_nameless rfl) .identifier) fun _ _ => rfl) newName)
    (.only (.seqRight (.of_nameless rfl) carries_tableName) fun _ => rfl)))

theorem carries_convertCharset :
    convertCharset.Carries keywords f calls (SameUnder (AlterOption.renamed f)) :=
  .last (.first (.seqRight (.of_nameless rfl) carries_looseName) fun _ _ => rfl) carries_collate

theorem carries_alterOption :
    alterOption.Carries keywords f calls (SameUnder (AlterOption.renamed f)) := by
  refine .oneOf carries_add ?_
  simp only [List.forall_mem_cons, List.not_mem_nil, false_implies, implies_true, and_true]
  exact ⟨carries_drop, carries_alter, carries_modify, carries_change, carries_rename, .fixed rfl,
    .fixed rfl, carries_convertCharset,
    carries_tableOption.only fun _ => rfl⟩

theorem carries_alterPartitionOption :
    alterPartitionOption.Carries keywords f calls (SameUnder (AlterPartitionOption.renamed f)) := by
  have kind : Rule.Carries keywords f calls (SameUnder (Partitioning.renamed f))
      (literal "PARTITION" *> literal "BY" *> partitioning) :=
    .seqRight (.of_nameless rfl) carries_partitioning
  have added : Rule.Carries keywords f calls (SameUnder (List.map (PartitionDefinition.renamed f)))
      (literal "ADD" *> literal "PARTITION" *> parenthesized (commaList partitionDefinition)) :=
    .seqRight (.of_nameless rfl) carries_partitionDefinition.commaList.parenthesized
  have dropped : Rule.Carries keywords f calls (SameUnder (List.map f))
      (literal "DROP" *> literal "PARTITION" *> commaList identifier) :=
    .seqRight (.of_nameless rfl) (.commaList .identifier)
  have names : partitionNames.Carries keywords f calls (SameUnder (PartitionNames.renamed f)) :=
    .orElse (.fixed rfl) (.only (.commaList .identifier) fun _ => rfl)
  have maintained : Rule.Carries keywords f calls (SameUnder (AlterPartitionOption.renamed f))
      (AlterPartitionOption.maintain <$> spelled <*> (literal "PARTITION" *> partitionNames)) :=
    .last (.first (.kept rfl) fun _ _ => rfl) (.seqRight (.of_nameless rfl) names)
  refine .oneOf (kind.only fun _ => rfl) ?_
  simp only [List.forall_mem_cons, List.not_mem_nil, false_implies, implies_true, and_true]
  exact ⟨added.only fun _ => rfl, dropped.only fun _ => rfl, maintained, .fixed rfl, .fixed rfl⟩

theorem carries_alteration :
    alteration.Carries keywords f calls (SameUnder (Alteration.renamed f)) :=
  .orElse (carries_alterOption.only fun _ => rfl) (carries_alterPartitionOption.only fun _ => rfl)

theorem carries_alterTable :
    alterTable.Carries keywords f calls (SameUnder (AlterTable.renamed f)) := by
  have ofParts (name : TableName) (parts : List Alteration) : (AlterTable.ofParts name parts).renamed f =
      AlterTable.ofParts (name.renamed f) (parts.map (Alteration.renamed f)) := by
    simp only [AlterTable.ofParts, AlterTable.renamed, List.map_filterMap, List.filterMap_map]
    congr 2 <;> funext part <;> cases part <;> rfl
  exact .last (.first (.seqRight (.of_nameless rfl) carries_tableName) ofParts)
    carries_alteration.commaList0

end TableDdl.Grammar

namespace TableDdl

theorem EntryPoint.carries {α : Type} (entry : EntryPoint α) (keywords : Keywords)
    (f : String → String) (calls : Nat) :
    entry.rule.Carries keywords f calls (SameUnder (entry.renamed f)) := by
  cases entry with
  | statement =>
    exact .orElse (Grammar.carries_createTable.only fun _ => rfl)
      (Grammar.carries_alterTable.only fun _ => rfl)
  | createTable => exact Grammar.carries_createTable
  | alterTable => exact Grammar.carries_alterTable
  | expression => exact carries_expression

end TableDdl
