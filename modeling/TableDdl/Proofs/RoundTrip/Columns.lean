import TableDdl.Proofs.RoundTrip.Attributes
import TableDdl.Proofs.RoundTrip.DataTypes

/-!
# Codecs of columns

A collation right after the type and one among the attributes are the same; where it is written
among the attributes but before all others, it is read back as one right after the type.
-/
namespace TableDdl

open Writes

variable {calls depth : Nat}

def Column.written (c : Column) : Written := ⟨c.layout.lexemes, c.looseNames, c.heads⟩

theorem Option.elim_eq_nil {α β : Type} {o : Option α} {f : α → List β} (some : ∀ x, f x ≠ []) :
    o.elim [] f = [] ↔ o = none := by
  cases o with
  | none => simp
  | some x => simp [some x]

theorem column_matched {c next : Cursor} {column : Column}
    (read : Grammar.column.read calls c = .matched column next) :
    ∃ name mid type mid' collation after body,
      Grammar.identifier.read calls c = .matched name mid ∧
      Grammar.dataType.read calls mid = .matched type mid' ∧
      Grammar.collate.optional.read calls mid' = .matched collation after ∧
      Grammar.columnBody.read calls after = .matched body next ∧
      column = body name type collation := by
  obtain ⟨_, body, after, h, last, rfl⟩ := Rule.seq_matched_iff.1 read
  obtain ⟨_, collation, mid', h', third, rfl⟩ := Rule.seq_matched_iff.1 h
  obtain ⟨_, type, mid, first, second, rfl⟩ := Rule.seq_matched_iff.1 h'
  obtain ⟨name, named, rfl⟩ := Rule.map_matched_iff.1 first
  exact ⟨name, mid, type, mid', collation, after, body, named, second, third, last, rfl⟩

namespace Codec

/-- The edges of a collation that is left out. -/
def noCollation : Edges := .absent Grammar.collate.starts

/-- The edges of a column whose type may take a collation, from those of the collation after the
type and those of the rest. -/
def columnEdges (takes : Bool) (E F : Edges) : Edges :=
  ((identifier.edges.andThen (dataType takes).edges).andThen E).andThen F

/-- The edges of a plain body, from those of its first attributes and those of the collation. -/
def plainEdges (E F : Edges) : Edges :=
  (Edges.absent Grammar.generatedAttributes.starts).andThen ((E.andThen F).andThen trailing.edges)

/-- Whether the type of a column takes a collation, the edges of the collation after the type and
those of the rest. The last two are the plain columns with a collation. -/
def columnShapes : List (Bool × Edges × Edges) := [
  (true, noCollation, generatedAttributes.edges),
  (false, noCollation, generatedAttributes.edges),
  (false, collate.edges, generatedAttributes.edges),
  (true, noCollation, plainEdges leading.edges noCollation),
  (false, noCollation, plainEdges leading.edges noCollation),
  (false, collate.edges, plainEdges leading.edges noCollation),
  (true, noCollation, plainEdges leading.edges.present collate.edges),
  (false, noCollation, plainEdges leading.edges.present collate.edges)]

theorem joins_columnShapes : ∀ shape ∈ columnShapes,
    (identifier.edges.andThen (dataType shape.1).edges).joins shape.2.1 = true ∧
    ((identifier.edges.andThen (dataType shape.1).edges).andThen shape.2.1).joins shape.2.2 =
      true := by
  decide +kernel

def columnKinds : Edges :=
  .any (columnShapes.map fun (takes, E, F) => columnEdges takes E F)

theorem readsBack_column {takes : Bool} {E F : Edges} {name : String} {type : DataType}
    {collation : Option String} {body : String → DataType → Option String → Column}
    {t u v w : Written} (hname : Grammar.identifier.ReadsBack calls depth identifier.edges name t)
    (htype : Grammar.dataType.ReadsBack calls depth (dataType takes).edges type u)
    (hcollation : Grammar.collate.optional.ReadsBack calls depth E collation v)
    (hbody : Grammar.columnBody.ReadsBack calls depth F body w)
    (shape : (takes, E, F) ∈ columnShapes) :
    Grammar.column.ReadsBack calls depth columnKinds (body name type collation)
      (t ++ u ++ v ++ w) := by
  obtain ⟨joins, joins'⟩ := joins_columnShapes _ shape
  have typed := (hname.map fun name type collation (body : String → DataType → Option String →
    Column) => body name type collation).seq htype (by cases takes <;> decide +kernel)
  exact ((typed.seq hcollation joins).seq hbody joins').within
    (Edges.within_any (List.mem_map_of_mem (f := fun (takes, E, F) => columnEdges takes E F) shape))

/-- A collation among the attributes counts before one after the type. -/
theorem collation_around {f : Option String → AttributeTail} {k : AttributeTail → PlainAttributes}
    {t v : Written} (textF : Leading f t) (textK : Trailing k v) (own label : Option String) :
    { k (f own) with collation := (k (f own)).collation <|> label } = k (f (own <|> label)) := by
  obtain ⟨notNull, default, onUpdate, visible, autoIncrement, unique, primary, comment, rfl, -⟩ :=
    textF
  obtain ⟨format, engine, secondary, storage, reference, check, rfl, -⟩ := textK
  rfl

theorem readsBack_plain {E F : Edges} {f : Option String → AttributeTail}
    {own : Option String} {k : AttributeTail → PlainAttributes} {t u v : Written}
    (textF : Leading f t) (textK : Trailing k v)
    (hf : Grammar.leadingAttributes.ReadsBack calls depth E f t)
    (hown : Grammar.collate.optional.ReadsBack calls depth F own u)
    (hk : Grammar.trailingAttributes.ReadsBack calls depth trailing.edges k v)
    (joins : E.joins F = true) (joins' : (E.andThen F).joins trailing.edges = true)
    (refused : (Edges.absent Grammar.generatedAttributes.starts).joins
      ((E.andThen F).andThen trailing.edges) = true) :
    Grammar.columnBody.ReadsBack calls depth (plainEdges E F)
      (fun name type label => .plain name type (k (f (own <|> label)))) (t ++ u ++ v) := by
  have around := ((hf.map fun f collation (k : AttributeTail → PlainAttributes) =>
    k (f collation)).seq hown joins).seq hk joins'
  have whole : Grammar.plainAttributes.ReadsBack calls depth
      ((E.andThen F).andThen trailing.edges) (k (f own)) (t ++ u ++ v) :=
    ⟨around.fits, around.sound, fun good pos rest avoids =>
      plainAttributes_matched_iff.2 (around.takes good pos rest avoids)⟩
  simp only [← collation_around textF textK]
  exact (whole.map _).refusingOpen ⟨rfl, rfl⟩ refused

/-- Where none of the first attributes is written, none of them was read. -/
theorem idle_of_leading {c next : Cursor} {f : Option String → AttributeTail} {t : Written}
    (read : Grammar.leadingAttributes.read calls c = .matched f next) (text : Leading f t)
    (empty : t.lexemes = []) : next = c ∧ t = .nil := by
  obtain ⟨notNull, default, onUpdate, visible, autoIncrement, unique, primary, comment, rfl, rfl⟩ :=
    text
  have words : ∀ b, (nullabilityWords b).lexemes ≠ [] := by decide
  obtain ⟨rfl, rfl, rfl, rfl, rfl, rfl, rfl, rfl⟩ : notNull = none ∧ default = none ∧
      onUpdate = none ∧ visible = none ∧ autoIncrement = false ∧ unique = false ∧ primary = false ∧
      comment = none := by
    simpa [PlainAttributes.written, PlainAttributes.layout, Option.elim_eq_nil, words] using empty
  refine ⟨?_, rfl⟩
  obtain ⟨_, comment, m7, h7, r8, same⟩ := Rule.seq_matched_iff.1 read
  obtain ⟨_, primary, m6, h6, r7, rfl⟩ := Rule.seq_matched_iff.1 h7
  obtain ⟨_, unique, m5, h5, r6, rfl⟩ := Rule.seq_matched_iff.1 h6
  obtain ⟨_, autoIncrement, m4, h4, r5, rfl⟩ := Rule.seq_matched_iff.1 h5
  obtain ⟨_, visible, m3, h3, r4, rfl⟩ := Rule.seq_matched_iff.1 h4
  obtain ⟨_, onUpdate, m2, h2, r3, rfl⟩ := Rule.seq_matched_iff.1 h3
  obtain ⟨_, default, m1, h1, r2, rfl⟩ := Rule.seq_matched_iff.1 h2
  obtain ⟨notNull, r1, rfl⟩ := Rule.map_matched_iff.1 h1
  have values := congrArg (fun f : Option String → AttributeTail =>
    f none none none none none none none) same
  simp only [PlainAttributes.mk.injEq, and_true] at values
  obtain ⟨rfl, rfl, rfl, rfl, rfl, rfl, rfl, rfl⟩ := values
  obtain rfl := Rule.eq_of_optional_none r8
  obtain rfl := Rule.eq_of_flag_false r7
  obtain rfl := Rule.eq_of_flag_false r6
  obtain rfl := Rule.eq_of_flag_false r5
  obtain rfl := Rule.eq_of_optional_none r4
  obtain rfl := Rule.eq_of_optional_none r3
  obtain rfl := Rule.eq_of_optional_none r2
  exact Rule.eq_of_optional_none r1

theorem plain_written (name : String) (type : DataType) (a : PlainAttributes) :
    (Column.plain name type a).written = .plain [.name name] ++ type.written ++
      ⟨a.layout.lexemes, a.collation.toList, a.heads⟩ := by
  apply Written.ext <;> simp [Column.written, Column.layout, Column.looseNames, Column.heads,
    DataType.written]

theorem generated_written (name : String) (type : DataType) (label : Option String)
    (a : GeneratedAttributes) :
    (Column.generated name type label a).written = .plain [.name name] ++ type.written ++
      label.elim .nil collation ++ a.written := by
  apply Written.ext <;> simp [Column.written, Column.layout, Column.looseNames, Column.heads,
    DataType.written, GeneratedAttributes.written, collation, loose]

/-- A collation that was read after the type is not one that the type takes. -/
theorem takesCollation_eq_false {c mid next : Cursor} {type : DataType} {label : String}
    (scanned : Scanned Keywords.mysql c.rest)
    (read : Grammar.dataType.read calls c = .matched type mid)
    (read' : Grammar.collate.optional.read calls mid = .matched (some label) next) :
    type.takesCollation = false := by
  cases takes : type.takesCollation with
  | false => rfl
  | true => cases ((failsEarly_collate scanned read takes).optional_matched read').1

/-- The text of a collation that was read. -/
theorem readsBack_collation {c next : Cursor} {label : String}
    (scanned : Scanned Keywords.mysql c.rest)
    (read : Grammar.collate.optional.read calls c = .matched (some label) next) :
    Grammar.collate.optional.ReadsBack calls c.depth collate.edges (some label)
      (collation label) := by
  obtain ⟨_, ⟨⟩, matched⟩ | ⟨⟨⟩, -⟩ := Rule.optional_matched_iff.1 read
  obtain ⟨_, rfl, back⟩ := collate.written (by decide +kernel) scanned matched
  exact back.given

theorem readsBack_noCollation :
    Grammar.collate.optional.ReadsBack calls depth noCollation none .nil :=
  have starts : Grammar.collate.Starts := ⟨rfl, rfl⟩
  .absent starts.first_eq starts.solid

theorem around_written {f : Option String → AttributeTail} {k : AttributeTail → PlainAttributes}
    {t v : Written} (textF : Leading f t) (textK : Trailing k v) (name : String) (type : DataType)
    (label : Option String) : (Column.plain name type (k (f label))).written =
      .plain [.name name] ++ type.written ++ (t ++ label.elim .nil collation ++ v) := by
  obtain ⟨notNull, default, onUpdate, visible, autoIncrement, unique, primary, comment, rfl, rfl⟩ :=
    textF
  obtain ⟨format, engine, secondary, storage, reference, check, rfl, rfl⟩ := textK
  rw [plain_written, PlainAttributes.written_eq]

section Read

variable {c mid after next : Cursor} {name : String} {type : DataType} {label : Option String}
  (hname : Grammar.identifier.ReadsBack calls c.depth identifier.edges name (.plain [.name name]))
  (scanned : Scanned Keywords.mysql c.rest)
  (typed : Grammar.dataType.read calls c = .matched type mid)
  (labelled : Grammar.collate.optional.read calls mid = .matched label after)

include hname scanned typed labelled in
theorem readsBack_generatedColumn {a : GeneratedAttributes}
    (read : Grammar.generatedAttributes.read calls after = .matched a next) :
    Grammar.column.ReadsBack calls c.depth columnKinds (.generated name type label a)
      (Column.generated name type label a).written := by
  have scannedLabel := scanned_of_read scanned typed
  obtain ⟨_, rfl, htype⟩ :=
    (dataType type.takesCollation).written (coherent_dataType _) scanned typed rfl
  obtain ⟨_, rfl, own⟩ := generatedAttributes.written coherent_generatedAttributes
    (scanned_of_read scannedLabel labelled) read
  rw [depth_of_read labelled, depth_of_read typed] at own
  have hbody : Grammar.columnBody.ReadsBack calls c.depth generatedAttributes.edges
      (fun name type collation => .generated name type collation a) a.written := (own.map _).left
  rw [generated_written]
  cases label with
  | none =>
    exact readsBack_column hname htype readsBack_noCollation hbody
      (by cases type.takesCollation <;> simp [columnShapes])
  | some label =>
    have hlabel := readsBack_collation scannedLabel labelled
    rw [depth_of_read typed] at hlabel
    rw [takesCollation_eq_false scanned typed labelled] at htype
    exact readsBack_column hname htype hlabel hbody (by simp [columnShapes])

include scanned typed labelled in
/-- The text of the collation of a column, read among the attributes or right after the type. -/
theorem readsBack_ownCollation {middle final : Cursor} {f : Option String → AttributeTail}
    {own : Option String} {x : String}
    (first : Grammar.leadingAttributes.read calls after = .matched f middle)
    (second : Grammar.collate.optional.read calls middle = .matched own final)
    (whole : (own <|> label) = some x) :
    Grammar.collate.optional.ReadsBack calls c.depth collate.edges (some x) (collation x) := by
  have scannedLabel := scanned_of_read scanned typed
  have scannedBody := scanned_of_read scannedLabel labelled
  have depthLabel := depth_of_read typed
  have depthOwn := ((depth_of_read first).trans (depth_of_read labelled)).trans depthLabel
  cases own with
  | some y =>
    obtain rfl : y = x := by simpa using whole
    have back := readsBack_collation (scanned_of_read scannedBody first) second
    rwa [depthOwn] at back
  | none =>
    obtain rfl : label = some x := by simpa using whole
    have back := readsBack_collation scannedLabel labelled
    rwa [depthLabel] at back

include scanned typed labelled in
/-- A collation that was read where the type could take one is not one that the type takes. -/
theorem takesCollation_eq_false_of_own {final : Cursor} {own : Option String} {x : String}
    (second : Grammar.collate.optional.read calls after = .matched own final)
    (whole : (own <|> label) = some x) : type.takesCollation = false := by
  cases label with
  | some y => exact takesCollation_eq_false scanned typed labelled
  | none =>
    obtain rfl := Rule.eq_of_optional_none labelled
    obtain rfl : own = some x := by simpa using whole
    exact takesCollation_eq_false scanned typed second

include hname scanned typed labelled in
theorem readsBack_plainColumn {a : PlainAttributes}
    (read : Grammar.plainAttributes.read calls after = .matched a next) :
    Grammar.column.ReadsBack calls c.depth columnKinds
      (.plain name type { a with collation := a.collation <|> label })
      (Column.plain name type { a with collation := a.collation <|> label }).written := by
  have scannedBody := scanned_of_read (scanned_of_read scanned typed) labelled
  have depthBody := (depth_of_read labelled).trans (depth_of_read typed)
  obtain ⟨_, rfl, htype⟩ :=
    (dataType type.takesCollation).written (coherent_dataType _) scanned typed rfl
  obtain ⟨_, k, _, opened, last, rfl⟩ :=
    Rule.seq_matched_iff.1 (plainAttributes_matched_iff.1 read)
  obtain ⟨_, own, _, around, second, rfl⟩ := Rule.seq_matched_iff.1 opened
  obtain ⟨f, first, rfl⟩ := Rule.map_matched_iff.1 around
  have scannedTail := scanned_of_read (scanned_of_read scannedBody first) second
  obtain ⟨t, textF, hf⟩ := leading.written coherent_leading scannedBody first
  obtain ⟨v, textK, hk⟩ := trailing.written coherent_trailing scannedTail last
  rw [depthBody] at hf
  rw [depth_of_read second, (depth_of_read first).trans depthBody] at hk
  rw [collation_around textF textK, around_written textF textK]
  cases whole : own <|> label with
  | none =>
    have hbody := readsBack_plain textF textK hf readsBack_noCollation hk (by decide +kernel)
      (by decide +kernel) (by decide +kernel)
    have back := readsBack_column hname htype readsBack_noCollation hbody
      (by cases type.takesCollation <;> simp [columnShapes])
    simpa using back
  | some x =>
    have hx := readsBack_ownCollation scanned typed labelled first second whole
    by_cases empty : t.lexemes = []
    · obtain ⟨rfl, rfl⟩ := idle_of_leading first textF empty
      rw [takesCollation_eq_false_of_own scanned typed labelled second whole] at htype
      have hbody := readsBack_plain textF textK hf readsBack_noCollation hk (by decide +kernel)
        (by decide +kernel) (by decide +kernel)
      have back := readsBack_column hname htype hx hbody (by simp [columnShapes])
      simpa [Written.append_assoc] using back
    · have hbody := readsBack_plain textF textK (hf.present empty) hx hk (by decide +kernel)
        (by decide +kernel) (by decide +kernel)
      have back := readsBack_column hname htype readsBack_noCollation hbody
        (by cases type.takesCollation <;> simp [columnShapes])
      simpa using back

end Read

def column : Codec Grammar.column (Exactly Column.written) where
  edges := columnKinds
  coherent := true
  written _ scanned read := by
    obtain ⟨name, mid, type, mid', label, after, body, named, typed, labelled, rest, rfl⟩ :=
      column_matched read
    obtain ⟨_, rfl, hname⟩ := identifier.written rfl scanned named
    have scannedType := scanned_of_read scanned named
    rw [← depth_of_read named] at hname ⊢
    refine ⟨_, rfl, ?_⟩
    rcases Rule.either_matched_iff.1 rest with generated | ⟨-, plain⟩
    · obtain ⟨a, matched, rfl⟩ := Rule.map_matched_iff.1 generated
      exact readsBack_generatedColumn hname scannedType typed labelled matched
    · obtain ⟨a, matched, rfl⟩ := Rule.map_matched_iff.1 plain
      exact readsBack_plainColumn hname scannedType typed labelled matched

end Codec
end TableDdl
