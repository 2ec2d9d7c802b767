import TableDdl.Proofs.RoundTrip.AlterOptions

/-!
# Codecs of changes to partitions

Some changes end with a list of names. Such a list goes on at a comma with a name after it, so
what may follow depends on whether the change ends in names.
-/
namespace TableDdl

open Writes

variable {calls depth : Nat}

def PartitionNames.isList : PartitionNames → Bool
  | .all => false
  | .names _ => true

/-- A list is not empty. -/
def PartitionNames.HasNames : PartitionNames → Prop
  | .all => True
  | .names ns => ns ≠ []

namespace AlterPartitionOption

def written (o : AlterPartitionOption) : Written := ⟨o.layout.lexemes, o.looseNames, o.heads⟩

/-- Whether the last part is a list of names. -/
def endsInNames : AlterPartitionOption → Bool
  | .dropPartition _ => true
  | .maintain _ partitions => partitions.isList
  | _ => false

/-- A list of names at the end is not empty. -/
def HasNames : AlterPartitionOption → Prop
  | .dropPartition ns => ns ≠ []
  | .maintain _ partitions => partitions.HasNames
  | _ => True

def firstWord : AlterPartitionOption → String
  | .partitionBy _ => "PARTITION"
  | .addPartition _ => "ADD"
  | .dropPartition _ => "DROP"
  | .maintain operation _ => Spelled.head operation
  | .coalescePartition _ => "COALESCE"
  | .removePartitioning => "REMOVE"

theorem head_lexemes (o : AlterPartitionOption) :
    o.layout.lexemes.head? = some (.word o.firstWord) := by
  cases o with
  | maintain operation partitions => cases operation <;> rfl
  | _ => rfl

end AlterPartitionOption

def Alteration.written : Alteration → Written
  | .option o => o.written
  | .partition o => o.written

def Alteration.endsInNames : Alteration → Bool
  | .option _ => false
  | .partition o => o.endsInNames

namespace Codec

/-- A list of names ends in names, of course. -/
def nameList : (ends : Bool) → On (fun _ => true) ends (Grammar.commaList Grammar.identifier)
    (fun ns t => ns ≠ [] ∧ t = .plain (Layout.names ns).lexemes)
  | true => .ofCodec names
  | false => .never fun _ => nofun

def partitionNames (ends : Bool) : On PartitionNames.isList ends Grammar.partitionNames
    (fun p t => p.HasNames ∧ t = .plain p.layout.lexemes) :=
  ((On.ofCodec (as (.word "ALL") PartitionNames.all)).either
    (On.map PartitionNames.names (nameList ends))).restate (by
    rintro _ _ (⟨rfl, rfl⟩ | ⟨ns, ⟨some, rfl⟩, rfl⟩)
    · exact ⟨trivial, rfl⟩
    · exact ⟨some, rfl⟩)

def maintain (ends : Bool) : On AlterPartitionOption.endsInNames ends
    (AlterPartitionOption.maintain <$> Grammar.spelled
      <*> (Grammar.literal "PARTITION" *> Grammar.partitionNames))
    (fun o t => o.HasNames ∧ t = o.written) :=
  (On.seq (map AlterPartitionOption.maintain spelled)
    (On.after (.word "PARTITION") (partitionNames ends))
    (by
      rintro _ _ x ⟨operation, -, rfl⟩
      rfl)).restate (by
    rintro _ _ ⟨_, _, _, _, ⟨operation, rfl, rfl⟩, ⟨_, ⟨some, rfl⟩, rfl⟩, rfl, rfl⟩
    refine ⟨some, ?_⟩
    apply Written.ext <;> simp [AlterPartitionOption.written, AlterPartitionOption.layout,
      AlterPartitionOption.looseNames, AlterPartitionOption.heads, Spelled.words])

def alterPartitionOption (ends : Bool) : On AlterPartitionOption.endsInNames ends
    Grammar.alterPartitionOption (fun o t => o.HasNames ∧ t = o.written) :=
  ((On.ofCodec (map AlterPartitionOption.partitionBy
      (partitioning.led ((Mark.word "PARTITION").after (.word "BY"))))).either
    ((On.ofCodec (map AlterPartitionOption.addPartition
      (partitionDefinitions.after ((Mark.word "ADD").after (.word "PARTITION"))))).either
    ((On.map AlterPartitionOption.dropPartition (On.after
      ((Mark.word "DROP").after (.word "PARTITION")) (nameList ends))).either
    ((maintain ends).either
    ((On.ofCodec (map AlterPartitionOption.coalescePartition
      (integer.led ((Mark.word "COALESCE").after (.word "PARTITION"))))).either
    (On.ofCodec (as ((Mark.word "REMOVE").after (.word "PARTITIONING"))
      AlterPartitionOption.removePartitioning))))))).restate (by
    rintro _ _ (⟨p, rfl, rfl⟩ | ⟨ds, ⟨_, ⟨-, rfl⟩, rfl⟩, rfl⟩ | ⟨ns, ⟨_, ⟨some, rfl⟩, rfl⟩, rfl⟩ |
      own | ⟨n, rfl, rfl⟩ | ⟨rfl, rfl⟩)
    case inr.inr.inr.inl => exact own
    case inr.inr.inl =>
      refine ⟨some, ?_⟩
      apply Written.ext <;> simp [AlterPartitionOption.written, AlterPartitionOption.layout,
        AlterPartitionOption.looseNames, AlterPartitionOption.heads]
    all_goals
      refine ⟨trivial, ?_⟩
      apply Written.ext <;> simp [AlterPartitionOption.written, AlterPartitionOption.layout,
        AlterPartitionOption.looseNames, AlterPartitionOption.heads, Partitioning.written,
        PartitionDefinition.listWritten])

theorem coherent_alterPartitionOption (ends : Bool) :
    (alterPartitionOption ends).coherent = true := by
  cases ends <;> decide +kernel

end Codec

namespace AlterPartitionOption

/-- The first words, as many as it takes to tell. -/
def openings : List (List Shape) :=
  [[.word "PARTITION"], [.word "ADD", .word "PARTITION"], [.word "DROP", .word "PARTITION"],
    [.word "TRUNCATE"], [.word "ANALYZE"], [.word "CHECK"], [.word "OPTIMIZE"], [.word "REBUILD"],
    [.word "REPAIR"], [.word "COALESCE"], [.word "REMOVE"]]

theorem exists_opening (o : AlterPartitionOption) :
    ∃ ss ∈ openings, ss <+: o.layout.lexemes.map Lexeme.shape := by
  cases o with
  | partitionBy p => exact ⟨[.word "PARTITION"], by simp [openings], _, rfl⟩
  | addPartition ds => exact ⟨[.word "ADD", .word "PARTITION"], by simp [openings], _, rfl⟩
  | dropPartition ns => exact ⟨[.word "DROP", .word "PARTITION"], by simp [openings], _, rfl⟩
  | maintain operation partitions =>
    exact ⟨[.word (Spelled.head operation)], by cases operation <;> decide, by
      cases operation <;> exact ⟨_, rfl⟩⟩
  | coalescePartition n => exact ⟨[.word "COALESCE"], by simp [openings], _, rfl⟩
  | removePartitioning => exact ⟨[.word "REMOVE"], by simp [openings], _, rfl⟩

theorem isEarly_alterOption :
    ∀ ss ∈ openings, ((Alteration.option <$> Grammar.alterOption).foresee ss).isEarly = true := by
  decide +kernel

/-- What the shapes of the first lexemes tell of a rule. -/
theorem failsEarly_of_shapes {α : Type} {r : DdlRule α} {ss : List Shape} {ls : List Lexeme}
    {pos : Nat} {rest : List Token} (early : (r.foresee ss).isEarly = true)
    (writable : ∀ l ∈ ls, l.Writable) (shapes : ss <+: ls.map Lexeme.shape) :
    r.FailsEarly calls ⟨pos, tokensOf ls ++ rest, depth⟩ :=
  Rule.failsEarly_of_foresee (.of_isPrefix shapes writable) early

theorem failsEarly_alterOption {o : AlterPartitionOption} {pos : Nat} {rest : List Token}
    (writable : ∀ l ∈ o.layout.lexemes, l.Writable) :
    (Alteration.option <$> Grammar.alterOption).FailsEarly calls
      ⟨pos, tokensOf o.layout.lexemes ++ rest, depth⟩ := by
  obtain ⟨ss, mem, shapes⟩ := o.exists_opening
  exact failsEarly_of_shapes (isEarly_alterOption ss mem) writable shapes

/-- A list of names ends where neither a comma nor a comma with a name after it follows. -/
def EndsNames (calls depth : Nat) (rest : List Token) : Prop :=
  ∀ pos, (Grammar.literal "," *> Grammar.identifier).FailsEarly calls ⟨pos, rest, depth⟩

theorem takes_comma {pos : Nat} {rest : List Token} :
    (Grammar.literal ",").Takes calls depth pos [.symbol ","] rest "," :=
  token_matched_iff.2 ⟨_, _, rfl, by rw [Terminal.accept_literal_symbol, if_pos rfl], rfl⟩

theorem takes_name {name : String} {pos : Nat} {rest : List Token} :
    Grammar.identifier.Takes calls depth pos [.name name] rest name :=
  token_matched_iff.2 ⟨_, _, rfl, Terminal.accept_identifier_name, rfl⟩

theorem takes_word {text : String} {pos : Nat} {rest : List Token}
    (plain : Text.isPlainWord text = true) :
    (Grammar.literal text).Takes calls depth pos [.word text] rest text :=
  token_matched_iff.2 ⟨_, _, rfl,
    by rw [Terminal.accept_literal_word plain, if_pos (Text.sameWord_refl text)], rfl⟩

theorem rounds_names {rest : List Token} (ends : EndsNames calls depth rest) (ns : List String)
    (pos : Nat) :
    let ls := ns.flatMap fun n => [Lexeme.symbol ",", .name n]
    Rule.Rounds calls (Grammar.literal "," *> Grammar.identifier)
      ⟨pos, tokensOf ls ++ rest, depth⟩ ns ⟨pos + ls.length, rest, depth⟩ := by
  induction ns generalizing pos with
  | nil => exact .stop (ends pos)
  | cons n ns ih =>
    intro ls
    let ls' := ns.flatMap fun n => [Lexeme.symbol ",", .name n]
    have first : (Grammar.literal "," *> Grammar.identifier).Takes calls depth pos
        [.symbol ",", .name n] (tokensOf ls' ++ rest) n :=
      (takes_comma.both takes_name).map Prod.snd
    have length : pos + ls.length = pos + 2 + ls'.length := by
      simp only [ls, ls', List.flatMap_cons, List.length_append, List.length_cons, List.length_nil]
      omega
    rw [length]
    exact .round first (by simp) (ih (pos + 2))

theorem lexemes_names (n : String) (ns : List String) : (Layout.names (n :: ns)).lexemes =
    .name n :: ns.flatMap fun n => [Lexeme.symbol ",", .name n] := by
  simp [Layout.names, Layout.commaSeparated, Layout.lexemes_joined_cons, List.flatMap_map]

theorem takes_names {rest : List Token} (ends : EndsNames calls depth rest) {ns : List String}
    (some : ns ≠ []) {pos : Nat} :
    (Grammar.commaList Grammar.identifier).Takes calls depth pos (Layout.names ns).lexemes rest ns := by
  cases ns with
  | nil => exact absurd rfl some
  | cons n ns =>
    rw [lexemes_names, Rule.Takes, List.length_cons, ← Nat.add_assoc, Nat.add_right_comm]
    exact Rule.sepBy1_matched_iff.2 ⟨n, _, ns, rfl, takes_name, rounds_names ends ns (pos + 1)⟩

theorem takes_dropPartition {rest : List Token} (ends : EndsNames calls depth rest)
    {ns : List String} (some : ns ≠ [])
    (writable : ∀ l ∈ (dropPartition ns).layout.lexemes, l.Writable) {pos : Nat} :
    Grammar.alterPartitionOption.Takes calls depth pos (dropPartition ns).layout.lexemes rest
      (dropPartition ns) := by
  have opens : [.word "DROP"] <+: (dropPartition ns).layout.lexemes.map Lexeme.shape := ⟨_, rfl⟩
  have opened : (Grammar.literal "DROP" *> Grammar.literal "PARTITION").Takes calls depth pos
      ([.word "DROP"] ++ [.word "PARTITION"]) (tokensOf (Layout.names ns).lexemes ++ rest)
      "PARTITION" :=
    ((takes_word (by decide)).both (takes_word (by decide))).map Prod.snd
  have own := ((opened.both (takes_names ends some)).map Prod.snd).map dropPartition
  exact Rule.either_matched_iff.2 (.inr ⟨failsEarly_of_shapes (by decide +kernel) writable opens,
    Rule.either_matched_iff.2 (.inr ⟨failsEarly_of_shapes (by decide +kernel) writable opens,
      Rule.either_matched_iff.2 (.inl own)⟩)⟩)

theorem takes_maintain {rest : List Token} (ends : EndsNames calls depth rest)
    {operation : PartitionOperation} {ns : List String} (some : ns ≠ [])
    (writable : ∀ l ∈ (maintain operation (.names ns)).layout.lexemes, l.Writable) {pos : Nat} :
    Grammar.alterPartitionOption.Takes calls depth pos
      (maintain operation (.names ns)).layout.lexemes rest (maintain operation (.names ns)) := by
  have lexemes : (maintain operation (.names ns)).layout.lexemes =
      (Spelled.words operation).map .word ++ ([.word "PARTITION"] ++ (Layout.names ns).lexemes) := by
    cases operation <;> rfl
  have opens : [.word (Spelled.head operation)] <+:
      (maintain operation (.names ns)).layout.lexemes.map Lexeme.shape := by
    cases operation <;> exact ⟨_, rfl⟩
  have spelling : (Grammar.spelled : DdlRule PartitionOperation).Takes calls depth pos
      ((Spelled.words operation).map .word)
      (tokensOf ([.word "PARTITION"] ++ (Layout.names ns).lexemes) ++ rest) operation :=
    (Spelled.readsBack_oneOf (by decide) (by cases operation <;> decide)).takes ⟨nofun, nofun⟩ pos
      _ nofun
  have shapes : [.name] <+: (Layout.names ns).lexemes.map Lexeme.shape := by
    cases ns with
    | nil => exact absurd rfl some
    | cons n ns => exact ⟨_, by rw [lexemes_names]; rfl⟩
  have own : ∀ l ∈ (Layout.names ns).lexemes, l.Writable := fun l hl =>
    writable l (by simp [lexemes, hl])
  have listed (pos : Nat) : Grammar.partitionNames.Takes calls depth pos
      (Layout.names ns).lexemes rest (.names ns) :=
    Rule.either_matched_iff.2 (.inr ⟨failsEarly_of_shapes (by decide) own shapes,
      (takes_names ends some).map PartitionNames.names⟩)
  have whole := ((spelling.map maintain).both
    (((takes_word (by decide)).both (listed _)).map Prod.snd)).map fun p => p.1 p.2
  rw [← lexemes] at whole
  exact Rule.either_matched_iff.2 (.inr ⟨failsEarly_of_shapes
      (by cases operation <;> decide +kernel) writable opens,
    Rule.either_matched_iff.2 (.inr ⟨failsEarly_of_shapes
      (by cases operation <;> decide +kernel) writable opens,
    Rule.either_matched_iff.2 (.inr ⟨failsEarly_of_shapes
      (by cases operation <;> decide +kernel) writable opens,
    Rule.either_matched_iff.2 (.inl whole)⟩)⟩)⟩)

end AlterPartitionOption
end TableDdl
