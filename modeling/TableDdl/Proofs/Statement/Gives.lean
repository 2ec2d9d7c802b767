import TableDdl.Proofs.Grammar.Locality
import TableDdl.Proofs.RoundTrip.Columns
import TableDdl.Proofs.RoundTrip.Parsing
import TableDdl.Proofs.Statement.WellFormed

/-!
# Statements that are read are well formed

One lemma for each rule of statements, which are read with all levels of nesting left. Most of
them only hand on what holds of the parts; that of columns looks at where a collation can have
been read.
-/
namespace TableDdl.Grammar

variable {α β : Type} {calls : Nat}

theorem gives_looseName : looseName.Gives calls 32 LooseOk :=
  .orElse (.mono .identifier fun _ => .inl) (.mono .string fun _ => .inr)

theorem gives_collate : collate.optional.Gives calls 32 fun o => ∀ n ∈ o, LooseOk n :=
  .optional (.seqRight _ gives_looseName)

theorem gives_charset? : charset?.Gives calls 32 fun o => ∀ n ∈ o, LooseOk n :=
  .optional (.seqRight _ gives_looseName)

theorem gives_name? {r : DdlRule α} :
    (r *> identifier.optional).Gives calls 32 fun o => ∀ n ∈ o, NameOk n :=
  .seqRight _ (.optional .identifier)

theorem gives_string? {r : DdlRule α} :
    (r *> string).optional.Gives calls 32 fun o => ∀ s ∈ o, LiteralOk s :=
  .optional (.seqRight _ .string)

theorem gives_tableName : tableName.Gives calls 32 TableName.WellFormed := by
  have second : Rule.Gives calls 32 (fun o => ∀ n ∈ o, NameOk n)
      (literal "." *> identifier).optional :=
    .optional (.seqRight _ .identifier)
  refine .seq (.map .identifier ?_) second
  intro first ok o oks
  cases o with
  | none => exact ⟨nofun, ok⟩
  | some second =>
    refine ⟨?_, oks second rfl⟩
    rintro _ ⟨⟩
    exact ok

theorem gives_numericType : numericType.Gives calls 32 fun t =>
    t.scale.isSome = true → t.precision.isSome = true := by
  refine .seq (.seq (.seq (.map (.any _) ?_) (.any size)) (.any _)) (.any _)
  intro kind _ size _ unsigned _ zerofill _ scale
  cases size with
  | none => cases scale
  | some p => rfl

theorem gives_textType : textType.Gives calls 32 TextType.WellFormed := by
  refine .seq (.seq (.seq (.seq (.map (.any _) ?_) (.any _)) (.any _)) gives_charset?) gives_collate
  intro _ _ _ _ _ _ _ charset _ collation
  exact ⟨charset, collation⟩

theorem gives_choiceType : choiceType.Gives calls 32 ChoiceType.WellFormed := by
  have values : Rule.Gives calls 32 (fun vs => ∀ v ∈ vs, LiteralOk v)
      ((·.getD []) <$> (parenthesized (commaList string)).optional) :=
    .getD (.mono (.parenthesized (.commaList .string)) fun _ => And.right)
  refine .seq (.seq (.seq (.map (.any _) ?_) values) gives_charset?) gives_collate
  intro _ _ _ values _ charset _ collation
  exact ⟨values, charset, collation⟩

theorem gives_dataType : dataType.Gives calls 32 DataType.WellFormed := by
  refine .oneOf (.map (.any _) fun _ _ => trivial) ?_
  simp only [List.forall_mem_cons, List.not_mem_nil, false_implies, implies_true, and_true]
  exact ⟨.map (.any _) fun _ _ => trivial, gives_numericType.map fun _ ok => ok,
    .map (.any _) fun _ _ => trivial, gives_textType.map fun _ ok => ok,
    .map (.any _) fun _ _ => trivial, gives_choiceType.map fun _ ok => ok, .as trivial _,
    .map (.any _) fun _ _ => trivial, .as trivial _⟩

theorem gives_indexOption : indexOption.Gives calls 32 IndexOption.WellFormed := by
  refine .oneOf (.map (.any _) fun _ _ => trivial) ?_
  simp only [List.forall_mem_cons, List.not_mem_nil, false_implies, implies_true, and_true]
  exact ⟨.map (.any _) fun _ _ => trivial, .map (.seqRight _ .identifier) fun _ ok => ok,
    .map (.seqRight _ .string) fun _ ok => ok, .map (.any _) fun _ _ => trivial,
    .map (.setting _ .string) fun _ ok => ok, .map (.setting _ .string) fun _ ok => ok⟩

theorem gives_keyPart : keyPart.Gives calls 32 KeyPart.WellFormed := by
  let Target (t : KeyPartTarget) : Prop := ∀ order, KeyPart.WellFormed ⟨t, order⟩
  have column : Rule.Gives calls 32 Target
      (KeyPartTarget.column <$> identifier <*> (parenthesized integer).optional) :=
    .seq (.map .identifier fun _ ok _ _ _ => ok) (.any _)
  have computed : Rule.Gives calls 32 Target
      (KeyPartTarget.expression <$> parenthesized expression) :=
    gives_expression.parenthesized.map fun _ ok _ => ok
  exact .seq (.map (column.orElse computed) fun _ ok order _ => ok order) (.any _)

theorem gives_keyParts : keyParts.Gives calls 32 (OneOrMore KeyPart.WellFormed) :=
  gives_keyPart.commaList.parenthesized

theorem gives_constraint : constraint.Gives calls 32 Constraint.WellFormed :=
  .map gives_name? fun _ ok => ok

theorem gives_reference : reference.Gives calls 32 Reference.WellFormed := by
  have add (triggers : List Reference.Trigger) (r : Reference) (ok : r.WellFormed) :
      (triggers.foldl Reference.add r).WellFormed := by
    induction triggers generalizing r with
    | nil => exact ok
    | cons t ts ih =>
      refine ih (r.add t) ?_
      cases t with
      | onDelete action => exact ⟨ok.table, ok.parts⟩
      | onUpdate action => exact ⟨ok.table, ok.parts⟩
  refine .seq (.seq (.seq (.map (.seqRight _ gives_tableName) ?_) gives_keyParts) (.any _)) (.any _)
  intro table ok parts oks matchType _ triggers _
  exact add triggers _ ⟨ok, oks⟩

theorem gives_checkBody : checkBody.Gives calls 32 fun body =>
    ∀ c : Option Constraint, (∀ k ∈ c, k.WellFormed) → (body c).WellFormed :=
  .seq (.map (.seqRight _ gives_expression.parenthesized) fun _ condition _ _ _ named =>
    .mk named condition) (.any _)

theorem gives_check : check.Gives calls 32 Check.WellFormed :=
  .seq (gives_constraint.optional.map fun c ok _ body => body c ok) gives_checkBody

theorem gives_indexOptions : indexOption.many.Gives calls 32 fun os => ∀ o ∈ os, o.WellFormed :=
  gives_indexOption.many

/-- A key or check under any constraint that is well formed. -/
abbrev KeyOk (body : Option Constraint → KeyDefinition) : Prop :=
  ∀ c : Option Constraint, (∀ k ∈ c, k.WellFormed) → (body c).WellFormed

theorem gives_primaryKey : primaryKey.Gives calls 32 KeyOk :=
  .seq (.seq (.map (.any _) fun _ _ _ parts _ options _ under => .primaryKey under parts options)
    gives_keyParts) gives_indexOptions

theorem gives_uniqueKey : uniqueKey.Gives calls 32 KeyOk :=
  .seq (.seq (.seq (.map gives_name? fun _ named _ _ _ parts _ options _ under =>
    .uniqueKey under named parts options) (.any _)) gives_keyParts) gives_indexOptions

theorem gives_foreignKey : foreignKey.Gives calls 32 KeyOk := by
  have columns : Rule.Gives calls 32 (OneOrMore NameOk) (parenthesized (commaList identifier)) :=
    .parenthesized (.commaList .identifier)
  exact .seq (.seq (.map gives_name? fun _ named _ columns _ target _ under =>
    .foreignKey under named columns target) columns) gives_reference

theorem gives_specialIndex : specialIndex.Gives calls 32 KeyDefinition.WellFormed :=
  .seq (.seq (.seq (.map (.any _) fun _ _ _ named _ parts _ options =>
    .specialIndex named parts options) gives_name?) gives_keyParts) gives_indexOptions

theorem gives_simpleIndex : simpleIndex.Gives calls 32 KeyDefinition.WellFormed :=
  .seq (.seq (.seq (.map gives_name? fun _ named _ _ _ parts _ options =>
    .index named parts options) (.any _)) gives_keyParts) gives_indexOptions

theorem gives_constrained : constrained.Gives calls 32 KeyDefinition.WellFormed := by
  have check : Rule.Gives calls 32 KeyOk ((fun body c => .check (body c)) <$> checkBody) :=
    gives_checkBody.map fun _ body c named => .check (body c named)
  refine .seq (gives_constraint.map fun c ok _ body => body (some c) ?_) (.oneOf gives_primaryKey ?_)
  · simp only [List.forall_mem_cons, List.not_mem_nil, false_implies, implies_true, and_true]
    exact ⟨gives_uniqueKey, gives_foreignKey, check⟩
  · rintro _ ⟨⟩
    exact ok

theorem gives_keyDefinition : keyDefinition.Gives calls 32 KeyDefinition.WellFormed := by
  have bare {r : DdlRule (Option Constraint → KeyDefinition)} (h : r.Gives calls 32 KeyOk) :
      Rule.Gives calls 32 KeyDefinition.WellFormed ((· none) <$> r) :=
    h.map fun _ body => body none nofun
  refine .oneOf gives_constrained ?_
  simp only [List.forall_mem_cons, List.not_mem_nil, false_implies, implies_true, and_true]
  exact ⟨bare gives_primaryKey, bare gives_uniqueKey, bare gives_foreignKey, gives_specialIndex,
    gives_check.map fun _ => .check, gives_simpleIndex⟩

theorem gives_comment? : comment?.Gives calls 32 fun o => ∀ s ∈ o, LiteralOk s := gives_string?

theorem gives_attribute? {r : DdlRule α} :
    (setting r string).optional.Gives calls 32 fun o => ∀ s ∈ o, LiteralOk s :=
  .optional (.setting _ .string)

theorem gives_defaultValue : defaultValue.Gives calls 32 DefaultValue.WellFormed := by
  refine .oneOf (.map (.any _) fun x _ => x.finite) ?_
  simp only [List.forall_mem_cons, List.not_mem_nil, false_implies, implies_true, and_true]
  exact ⟨.map .string fun _ ok => ok, .map (.any _) fun _ _ => trivial, .as trivial _,
    gives_expression.commaList.parenthesized.map fun _ ok => ok, .map (.any _) fun _ _ => trivial⟩

theorem gives_generatedAttributes :
    generatedAttributes.Gives calls 32 GeneratedAttributes.WellFormed := by
  refine .seq (.seq (.seq (.seq (.seq (.seq (.seq (.seq
    (.map (.seqRight _ gives_expression.parenthesized) ?_) (.any _)) (.any _)) (.any _)) (.any _))
    (.any _)) gives_comment?) gives_reference.optional) gives_check.optional
  intro _ expression _ _ _ _ _ _ _ _ _ _ _ comment _ reference _ check
  exact ⟨expression, comment, reference, check⟩

theorem gives_plainAttributes : plainAttributes.Gives calls 32 PlainAttributes.WellFormed := by
  have default : Rule.Gives calls 32 (fun o => ∀ d ∈ o, DefaultValue.WellFormed d)
      (literal "DEFAULT" *> defaultValue).optional :=
    .optional (.seqRight _ gives_defaultValue)
  refine .seq (.seq (.seq (.seq (.seq (.seq (.seq (.seq (.seq (.seq (.seq (.seq (.seq (.seq
    (.map (.any _) ?_) default) (.any _)) (.any _)) (.any _)) (.any _)) (.any _)) gives_comment?)
    gives_collate) (.any _)) gives_attribute?) gives_attribute?) (.any _)) gives_reference.optional)
    gives_check.optional
  intro _ _ _ default _ _ _ _ _ _ _ _ _ _ _ comment _ collation _ _ _ engine _ secondary _ _ _
    reference _ check
  exact ⟨default, comment, collation, engine, secondary, reference, check⟩

theorem takesCollation_eq_true {type : DataType} (lacks : type.LacksCollation) :
    type.takesCollation = true := by
  cases type <;> first | exact lacks.elim | exact Option.isNone_iff_eq_none.2 lacks

/-- Where the type could have taken a collation, there is none right after it, so the one among the
attributes stands after another attribute. -/
theorem leads_of_collation {c mid after next : Cursor} {type : DataType} {label : Option String}
    {a : PlainAttributes} (scanned : Scanned Keywords.mysql c.rest)
    (typed : dataType.read calls c = .matched type mid)
    (labelled : collate.optional.read calls mid = .matched label after)
    (read : plainAttributes.read calls after = .matched a next) (lacks : type.LacksCollation)
    (collated : (a.collation <|> label).isSome = true) : a.Leads := by
  have early := Codec.failsEarly_collate scanned typed (takesCollation_eq_true lacks)
  obtain ⟨rfl, rfl⟩ := early.optional_matched labelled
  obtain ⟨_, k, mid₂, opened, last, rfl⟩ :=
    Rule.seq_matched_iff.1 (plainAttributes_matched_iff.1 read)
  obtain ⟨_, own, mid₁, around, second, rfl⟩ := Rule.seq_matched_iff.1 opened
  obtain ⟨f, first, rfl⟩ := Rule.map_matched_iff.1 around
  have scannedBody := scanned_of_read scanned typed
  have scannedOwn := scanned_of_read scannedBody first
  obtain ⟨t, textF, -⟩ := Codec.leading.written Codec.coherent_leading scannedBody first
  obtain ⟨_, textK, -⟩ :=
    Codec.trailing.written Codec.coherent_trailing (scanned_of_read scannedOwn second) last
  have idle := Codec.idle_of_leading first textF
  obtain ⟨notNull, default, onUpdate, visible, autoIncrement, unique, primary, comment, rfl, rfl⟩ :=
    textF
  obtain ⟨format, engine, secondary, storage, reference, check, rfl, -⟩ := textK
  by_contra silent
  simp only [PlainAttributes.Leads, not_or, Bool.not_eq_true, Option.isSome_eq_false_iff,
    Option.isNone_iff_eq_none] at silent
  obtain ⟨rfl, rfl, rfl, rfl, rfl, rfl, rfl, rfl⟩ := silent
  obtain ⟨rfl, -⟩ := idle rfl
  obtain ⟨rfl, -⟩ := early.optional_matched second
  cases collated

theorem gives_column : column.Gives calls 32 Column.WellFormed := by
  intro c column next deep scanned read
  obtain ⟨name, mid, type, mid', label, after, body, named, typed, labelled, rest, rfl⟩ :=
    column_matched read
  have scannedType := scanned_of_read scanned named
  have scannedLabel := scanned_of_read scannedType typed
  have scannedBody := scanned_of_read scannedLabel labelled
  have deepType := (depth_of_read named).symm ▸ deep
  have deepLabel := (depth_of_read typed).symm ▸ deepType
  have deepBody := (depth_of_read labelled).symm ▸ deepLabel
  have nameOk : NameOk name := Rule.Gives.identifier deep scanned named
  have typeOk := gives_dataType deepType scannedType typed
  have labelOk := gives_collate deepLabel scannedLabel labelled
  rcases Rule.either_matched_iff.1 rest with generated | ⟨-, plain⟩
  · obtain ⟨a, matched, rfl⟩ := Rule.map_matched_iff.1 generated
    exact .generated nameOk typeOk labelOk (gives_generatedAttributes deepBody scannedBody matched)
  · obtain ⟨a, matched, rfl⟩ := Rule.map_matched_iff.1 plain
    have attributesOk := gives_plainAttributes deepBody scannedBody matched
    refine .plain nameOk typeOk { attributesOk with collation := fun n mem => ?_ }
      (leads_of_collation scannedType typed labelled matched)
    cases own : a.collation with
    | none => exact labelOk n (by simpa [own] using mem)
    | some m => exact attributesOk.collation n (by simpa [own] using mem)

theorem gives_hashPartition : hashPartition.Gives calls 32 HashPartition.WellFormed :=
  .seq (.map (.any _) fun _ _ _ ok => ok) (.seqRight _ gives_expression.parenthesized)

theorem gives_keyPartition : keyPartition.Gives calls 32 KeyPartition.WellFormed := by
  have columns : Rule.Gives calls 32 (fun names => ∀ n ∈ names, NameOk n)
      (parenthesized (commaList0 identifier)) :=
    .parenthesized (.commaList0 .identifier)
  exact .seq (.seq (.map (.any _) fun _ _ _ _ _ each => each) (.any _)) columns

theorem gives_partitionBy : partitionBy.Gives calls 32 PartitionBy.WellFormed := by
  have columns : Rule.Gives calls 32 (OneOrMore NameOk)
      (literal "COLUMNS" *> parenthesized (commaList identifier)) :=
    .seqRight _ (.parenthesized (.commaList .identifier))
  exact .orElse (gives_expression.parenthesized.map fun _ ok => ok) (columns.map fun _ ok => ok)

theorem gives_partitionKind : partitionKind.Gives calls 32 PartitionKind.WellFormed := by
  refine .oneOf (gives_hashPartition.map fun _ ok => ok) ?_
  simp only [List.forall_mem_cons, List.not_mem_nil, false_implies, implies_true, and_true]
  exact ⟨gives_keyPartition.map fun _ ok => ok, .map (.seqRight _ gives_partitionBy) fun _ ok => ok,
    .map (.seqRight _ gives_partitionBy) fun _ ok => ok⟩

theorem gives_subpartitionKind :
    subpartitionKind.Gives calls 32 SubpartitionKind.WellFormed :=
  .orElse (gives_hashPartition.map fun _ ok => ok) (gives_keyPartition.map fun _ ok => ok)

theorem gives_partitionValue : partitionValue.Gives calls 32 PartitionValue.WellFormed :=
  .orElse (.as trivial _) (gives_expression.map fun _ ok => ok)

/-- One expression in parentheses is no list of values, so a list of one value is `MAXVALUE`. -/
theorem wellFormed_ofList {vs : List PartitionValue} (ok : OneOrMore PartitionValue.WellFormed vs) :
    (LessThan.ofList vs).WellFormed := by
  match vs, ok with
  | [], ok => exact absurd rfl ok.1
  | [.expression e], ok => exact ok.2 (.expression e) (by simp)
  | [.maxValue], ok => exact ⟨.inl rfl, ok.2⟩
  | .maxValue :: _ :: _, ok => exact ⟨.inr (by simp), ok.2⟩
  | .expression _ :: _ :: _, ok => exact ⟨.inr (by simp), ok.2⟩

theorem gives_lessThan : lessThan.Gives calls 32 LessThan.WellFormed :=
  .orElse (.as trivial _)
    (gives_partitionValue.commaList.parenthesized.map fun _ => wellFormed_ofList)

theorem gives_partitionValues : partitionValues.Gives calls 32 PartitionValues.WellFormed :=
  .seqRight _ (.orElse (.map (.seqRight _ gives_lessThan) fun _ ok => ok)
    (.map (.seqRight _ gives_expression.commaList.parenthesized) fun _ ok => ok))

theorem gives_partitionOption : partitionOption.Gives calls 32 PartitionOption.WellFormed := by
  refine .oneOf (.map (.seqRight _ (.setting _ gives_looseName)) fun _ ok => ok) ?_
  simp only [List.forall_mem_cons, List.not_mem_nil, false_implies, implies_true, and_true]
  exact ⟨.map (.setting _ .string) fun _ ok => ok, .map (.setting _ .string) fun _ ok => ok,
    .map (.setting _ .string) fun _ ok => ok, .map (.any _) fun _ _ => trivial,
    .map (.any _) fun _ _ => trivial, .map (.setting _ gives_looseName) fun _ ok => ok⟩

theorem gives_partitionDefinition :
    partitionDefinition.Gives calls 32 PartitionDefinition.WellFormed :=
  .seq (.seq (.map (.seqRight _ .identifier) fun _ name _ values _ options =>
    ⟨name, values, options⟩) gives_partitionValues.optional) gives_partitionOption.many

theorem gives_partitioning : partitioning.Gives calls 32 Partitioning.WellFormed := by
  have definitions : Rule.Gives calls 32 (fun ds => ∀ d ∈ ds, d.WellFormed)
      ((·.getD []) <$> (parenthesized (commaList partitionDefinition)).optional) :=
    .getD (gives_partitionDefinition.commaList.parenthesized.mono fun _ => And.right)
  have subpartitions : Rule.Gives calls 32 (fun o => ∀ s ∈ o, SubpartitionKind.WellFormed s)
      (literal "SUBPARTITION" *> literal "BY" *> subpartitionKind).optional :=
    .optional (.seqRight _ gives_subpartitionKind)
  refine .seq (.seq (.seq (.seq (gives_partitionKind.map ?_) (.any _)) subpartitions) (.any _))
    definitions
  intro _ kind _ _ _ sub _ _ _ definitions
  exact ⟨kind, sub, definitions⟩

theorem gives_tableOption : tableOption.Gives calls 32 TableOption.WellFormed := by
  have union : Rule.Gives calls 32 (fun names => ∀ n ∈ names, NameOk n)
      (setting (literal "UNION") (parenthesized (commaList0 identifier))) :=
    .setting _ (.parenthesized (.commaList0 .identifier))
  have tablespace : tablespaceOption.Gives calls 32 TableOption.WellFormed :=
    .seq (.map (.setting _ gives_looseName) fun _ ok _ _ => ok) (.any _)
  have unchecked {β : Type} {f : β → TableOption} {r : DdlRule β} (free : ∀ x, (f x).WellFormed) :
      Rule.Gives calls 32 TableOption.WellFormed (f <$> r) :=
    .map (.any _) fun x _ => free x
  have loose {β : Type} {f : String → TableOption} {key : DdlRule β}
      (named : ∀ n, LooseOk n → (f n).WellFormed) :
      Rule.Gives calls 32 TableOption.WellFormed (f <$> setting key looseName) :=
    .map (.setting _ gives_looseName) named
  have literal {β : Type} {f : String → TableOption} {key : DdlRule β}
      (quoted : ∀ s, LiteralOk s → (f s).WellFormed) :
      Rule.Gives calls 32 TableOption.WellFormed (f <$> setting key string) :=
    .map (.setting _ .string) quoted
  refine .oneOf (unchecked fun _ => trivial) ?_
  simp only [List.forall_mem_cons, List.not_mem_nil, false_implies, implies_true, and_true]
  exact ⟨unchecked fun _ => trivial, unchecked fun _ => trivial,
    .map (.seqRight _ (.setting _ gives_looseName)) fun _ ok => ok, unchecked fun _ => trivial,
    .map (.seqRight _ (.setting _ gives_looseName)) fun _ ok => ok,
    literal fun _ ok => ok, literal fun _ ok => ok, literal fun _ ok => ok, literal fun _ ok => ok,
    literal fun _ ok => ok, unchecked fun _ => trivial, literal fun _ ok => ok,
    loose fun _ ok => ok, literal fun _ ok => ok, unchecked fun _ => trivial,
    literal fun _ ok => ok, unchecked fun _ => trivial, unchecked fun _ => trivial,
    unchecked fun _ => trivial, unchecked fun _ => trivial, literal fun _ ok => ok,
    unchecked fun _ => trivial, unchecked fun _ => trivial, unchecked fun _ => trivial,
    unchecked fun _ => trivial, tablespace, union.map fun _ ok => ok⟩

theorem gives_definition : definition.Gives calls 32 Definition.WellFormed :=
  .orElse (gives_keyDefinition.map fun _ ok => ok) (gives_column.map fun _ ok => ok)

theorem gives_createTable : createTable.Gives calls 32 CreateTable.WellFormed := by
  have options : tableOptions.Gives calls 32 fun os => ∀ o ∈ os, o.WellFormed :=
    .many (.seqRight _ gives_tableOption)
  have partitions : Rule.Gives calls 32 (fun o => ∀ p ∈ o, Partitioning.WellFormed p)
      (literal "PARTITION" *> literal "BY" *> partitioning).optional :=
    .optional (.seqRight _ gives_partitioning)
  refine .seq (.seq (.seq (.seq (.seq (.map (.any _) ?_) (.any _)) gives_tableName)
    gives_definition.commaList0.parenthesized) options) partitions
  intro _ _ _ _ _ name _ definitions _ options _ partitioning
  exact ⟨name, definitions, options, partitioning⟩

theorem gives_columnPosition : columnPosition.Gives calls 32 ColumnPosition.WellFormed :=
  .orElse (.as trivial _) (.map (.seqRight _ .identifier) fun _ ok => ok)

theorem gives_addColumn : addColumn.Gives calls 32 AlterOption.WellFormed := by
  refine .seqRight _ (.orElse (gives_column.commaList.parenthesized.map fun _ ok => ok) ?_)
  exact .seq (gives_column.map fun _ ok _ position => ⟨ok, position⟩) gives_columnPosition.optional

theorem gives_add : add.Gives calls 32 AlterOption.WellFormed :=
  .seqRight _ (.orElse (gives_keyDefinition.map fun _ ok => ok) gives_addColumn)

theorem gives_drop : drop.Gives calls 32 AlterOption.WellFormed := by
  refine .seqRight _ (.oneOf (.map (.seqRight _ .identifier) fun _ ok => ok) ?_)
  simp only [List.forall_mem_cons, List.not_mem_nil, false_implies, implies_true, and_true]
  exact ⟨.as trivial _, .map (.seqRight _ .identifier) fun _ ok => ok,
    .map (.seqRight _ .identifier) fun _ ok => ok, .map (.seqRight _ .identifier) fun _ ok => ok⟩

theorem gives_alterColumnAction :
    alterColumnAction.Gives calls 32 AlterColumnAction.WellFormed := by
  refine .oneOf (.map (.seqRight _ gives_defaultValue) fun _ ok => ok) ?_
  simp only [List.forall_mem_cons, List.not_mem_nil, false_implies, implies_true, and_true]
  exact ⟨.as trivial _, .as trivial _, .as trivial _⟩

theorem gives_alter : alter.Gives calls 32 AlterOption.WellFormed := by
  have check : Rule.Gives calls 32 AlterOption.WellFormed
      (AlterOption.alterCheck <$> (checkOrConstraint *> identifier) <*> enforcement) :=
    .seq (.map (.seqRight _ .identifier) fun _ ok _ _ => ok) (.any _)
  have index : Rule.Gives calls 32 AlterOption.WellFormed
      (AlterOption.alterIndex <$> (literal "INDEX" *> identifier) <*> visibility) :=
    .seq (.map (.seqRight _ .identifier) fun _ ok _ _ => ok) (.any _)
  have column : Rule.Gives calls 32 AlterOption.WellFormed
      (AlterOption.alterColumn <$> (columnKeyword *> identifier) <*> alterColumnAction) :=
    .seq (.map (.seqRight _ .identifier) fun _ ok _ action => ⟨ok, action⟩) gives_alterColumnAction
  exact .seqRight _ (check.orElse (index.orElse column))

theorem gives_modify : modify.Gives calls 32 AlterOption.WellFormed :=
  .seq (.map (.seqRight _ gives_column) fun _ column _ position => ⟨column, position⟩)
    gives_columnPosition.optional

theorem gives_change : change.Gives calls 32 AlterOption.WellFormed :=
  .seq (.seq (.map (.seqRight _ .identifier) fun _ old _ column _ position =>
    ⟨old, column, position⟩) gives_column) gives_columnPosition.optional

theorem gives_rename : rename.Gives calls 32 AlterOption.WellFormed := by
  have newName : Rule.Gives calls 32 NameOk (literal "TO" *> identifier) := .seqRight _ .identifier
  have column : Rule.Gives calls 32 AlterOption.WellFormed
      (AlterOption.renameColumn <$> (literal "COLUMN" *> identifier)
        <*> (literal "TO" *> identifier)) :=
    .seq (.map (.seqRight _ .identifier) fun _ old _ new => ⟨old, new⟩) newName
  have index : Rule.Gives calls 32 AlterOption.WellFormed
      (AlterOption.renameIndex <$> (indexOrKey *> identifier) <*> (literal "TO" *> identifier)) :=
    .seq (.map (.seqRight _ .identifier) fun _ old _ new => ⟨old, new⟩) newName
  have table : Rule.Gives calls 32 AlterOption.WellFormed
      (AlterOption.renameTable <$> ((literal "TO" <|> literal "AS").optional *> tableName)) :=
    .map (.seqRight _ gives_tableName) fun _ ok => ok
  exact .seqRight _ (column.orElse (index.orElse table))

theorem gives_convertCharset : convertCharset.Gives calls 32 AlterOption.WellFormed :=
  .seq (.map (.seqRight _ gives_looseName) fun _ charset _ collation => ⟨charset, collation⟩)
    gives_collate

theorem gives_alterOption : alterOption.Gives calls 32 AlterOption.WellFormed := by
  refine .oneOf gives_add ?_
  simp only [List.forall_mem_cons, List.not_mem_nil, false_implies, implies_true, and_true]
  exact ⟨gives_drop, gives_alter, gives_modify, gives_change, gives_rename,
    .map (.any _) fun _ _ => trivial, .map (.any _) fun _ _ => trivial, gives_convertCharset,
    gives_tableOption.map fun _ ok => ok⟩

theorem gives_partitionNames : partitionNames.Gives calls 32 PartitionNames.WellFormed := by
  have names : Rule.Gives calls 32 (OneOrMore NameOk) (commaList identifier) :=
    .commaList .identifier
  exact .orElse (.as trivial _) (names.map fun _ ok => ok)

theorem gives_alterPartitionOption :
    alterPartitionOption.Gives calls 32 AlterPartitionOption.WellFormed := by
  have names : Rule.Gives calls 32 (OneOrMore NameOk) (commaList identifier) :=
    .commaList .identifier
  refine .oneOf (.map (.seqRight _ gives_partitioning) fun _ ok => ok) ?_
  simp only [List.forall_mem_cons, List.not_mem_nil, false_implies, implies_true, and_true]
  exact ⟨.map (.seqRight _ gives_partitionDefinition.commaList.parenthesized) fun _ ok => ok,
    .map (.seqRight _ names) fun _ ok => ok,
    .seq (.map (.any _) fun _ _ _ ok => ok) (.seqRight _ gives_partitionNames),
    .map (.any _) fun _ _ => trivial, .as trivial _⟩

theorem gives_alteration : alteration.Gives calls 32 Alteration.WellFormed :=
  .orElse (gives_alterOption.map fun _ ok => ok) (gives_alterPartitionOption.map fun _ ok => ok)

theorem gives_alterTable : alterTable.Gives calls 32 AlterTable.WellFormed := by
  refine .seq (.map (.seqRight _ gives_tableName) fun name named parts each => ?_)
    gives_alteration.commaList0
  refine ⟨named, fun o mem => ?_, fun o mem => ?_⟩
  · obtain ⟨part, found, same⟩ := List.mem_filterMap.1 mem
    cases part with
    | option _ =>
      obtain rfl := Option.some.inj same
      exact each _ found
    | partition _ => cases same
  · obtain ⟨part, found, same⟩ := List.mem_filterMap.1 mem
    cases part with
    | option _ => cases same
    | partition _ =>
      obtain rfl := Option.some.inj same
      exact each _ found

theorem gives_statement : statement.Gives calls 32 Statement.WellFormed :=
  .orElse (gives_createTable.map fun _ ok => ok) (gives_alterTable.map fun _ ok => ok)

end TableDdl.Grammar

namespace TableDdl.EntryPoint

variable {α : Type}

/-- An expression by itself may use all levels of nesting, as one in a statement does. -/
def WellFormed : EntryPoint α → α → Prop
  | .statement => Statement.WellFormed
  | .createTable => CreateTable.WellFormed
  | .alterTable => AlterTable.WellFormed
  | .expression => Expression.WellFormed 32

theorem gives (entry : EntryPoint α) (calls : Nat) :
    entry.rule.Gives calls 32 entry.WellFormed := by
  cases entry with
  | statement => exact Grammar.gives_statement
  | createTable => exact Grammar.gives_createTable
  | alterTable => exact Grammar.gives_alterTable
  | expression => exact gives_expression

/-- What is parsed under the default table is well formed: lists that must have an item have one,
names and literals can be written, numbers are finite, expressions are nested at most 32 levels
deep, and a collation of a column that its type could have taken is not its first attribute. -/
theorem wellFormed_of_parse (entry : EntryPoint α) (text : String) (tree : α)
    (parsed : Parser.parse .mysql entry.rule text = .ok tree) : entry.WellFormed tree := by
  obtain ⟨ts, mid, cut, read, -⟩ := Parser.read_of_parse parsed
  have scanned : Scanned Keywords.mysql (Cursor.start ts).rest := scanned_of_tokenize cut
  exact entry.gives Parser.calls rfl scanned read

/-- The type has no collation, and the one of the column stands after `NULL`. -/
theorem wellFormed_of_parse_collated :
    createTable.WellFormed ⟨false, false, ⟨none, "t"⟩, [.column (.plain "c"
      (.choice ⟨false, ["a"], none, none⟩) { notNull := some false, collation := some "x" })],
      [], none⟩ :=
  createTable.wellFormed_of_parse "create table t (c enum('a') null collate x)" _
    (Parser.eq_ok_of_toOption (by decide +kernel))

end TableDdl.EntryPoint
