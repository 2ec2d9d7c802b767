import TableDdl.Proofs.Expression.Spacing
import TableDdl.Statement

/-!
# Spacing of statements

No lexeme of a written table definition or alteration runs into the next.
-/
namespace TableDdl

open Layout

@[simp] theorem TableName.spaced_layout (t : TableName) : t.layout.Spaced := by
  rcases t with ⟨schema, name⟩
  cases schema with
  | none => exact spaced_name name
  | some schema =>
    exact List.isChain_cons_cons.2 ⟨rfl, List.isChain_cons_cons.2 ⟨rfl, spaced_name name⟩⟩

namespace Layout

@[simp] theorem opens_length (n : Option UInt32) : Opens (length n) := by
  cases n <;> simp [length]

@[simp] theorem spaced_length (n : Option UInt32) : Spaced (length n) := by
  cases n <;> simp [length]

@[simp] theorem opens_precisionAndScale (p s : Option UInt32) : Opens (precisionAndScale p s) := by
  cases p <;> cases s <;> simp [precisionAndScale]

@[simp] theorem spaced_precisionAndScale (p s : Option UInt32) : Spaced (precisionAndScale p s) := by
  cases p with
  | none => exact spaced_nil
  | some p =>
    cases s with
    | none => simp [precisionAndScale]
    | some s =>
      refine (spaced_parenthesized _).2 ?_
      exact List.isChain_cons_cons.2 ⟨rfl, List.isChain_cons_cons.2 ⟨rfl, spaced_integer _⟩⟩

@[simp] theorem opens_sign (unsigned zerofill : Bool) : Opens (sign unsigned zerofill) :=
  Opens.append (opens_onlyIf _ _) (opens_onlyIf _ _)

@[simp] theorem spaced_sign (unsigned zerofill : Bool) : Spaced (sign unsigned zerofill) := by
  simp [sign]

@[simp] theorem opens_charset (charset collation : Option String) :
    Opens (Layout.charset charset collation) :=
  Opens.append (opens_given _ _) (opens_given _ _)

@[simp] theorem spaced_charset (charset collation : Option String) :
    Spaced (Layout.charset charset collation) := by
  simp [-List.append_assoc, Layout.charset]

@[simp] theorem opens_choices (values : List String) : Opens (choices values) := by
  cases values <;> simp [choices]

@[simp] theorem spaced_choices (values : List String) : Spaced (choices values) := by
  cases values with
  | nil => exact spaced_nil
  | cons value values =>
    refine (spaced_parenthesized _).2 ((spaced_joined begins_comma ?_ (spaced_symbol _)).2 (by simp))
    rintro p hp
    obtain rfl := Option.some.inj hp
    rfl

end Layout

@[simp] theorem DataType.spaced_layout (t : DataType) : t.layout.Spaced := by
  cases t with
  | text t => cases h : t.national <;> simp [-List.append_assoc, DataType.layout, h]
  | _ => simp [-List.append_assoc, DataType.layout]

@[simp] theorem KeyPart.spaced_layout (p : KeyPart) : p.layout.Spaced := by
  rcases p with ⟨target, order⟩
  cases target with
  | column name length =>
    cases length <;> simp [-List.append_assoc, KeyPart.layout, KeyPartTarget.layout]
  | expression e => simp [KeyPart.layout, KeyPartTarget.layout]

@[simp] theorem IndexOption.spaced_layout (o : IndexOption) : o.layout.Spaced := by
  cases o <;> simp [-List.append_assoc, IndexOption.layout]

@[simp] theorem KeyPart.spaced_list (parts : List KeyPart) : (KeyPart.list parts).Spaced := by
  simp [KeyPart.list]

@[simp] theorem Constraint.spaced_layoutBefore_append (c : Option Constraint) (l : Layout) :
    (Constraint.layoutBefore c ++ l).Spaced ↔ l.Spaced := by
  rcases c with _ | ⟨_ | name⟩ <;> simp [-List.append_assoc, Constraint.layoutBefore]

@[simp] theorem Reference.spaced_layout (r : Reference) : r.layout.Spaced := by
  simp [-List.append_assoc, Reference.layout]

@[simp] theorem spaced_enforcementWords (enforced : Bool) : (enforcementWords enforced).Spaced :=
  spaced_words _

@[simp] theorem Check.spaced_layout (c : Check) : c.layout.Spaced := by
  simp [-List.append_assoc, Check.layout]

namespace KeyDefinition

variable {label : Option String} {type : Option IndexType} {parts : List KeyPart}
  {options : List IndexOption}

@[simp] theorem opens_tail : Opens (tail label type parts options) := by
  have front := Opens.append (opens_given label name)
    (opens_given type fun t => word "USING" ++ space ++ spelled t)
  exact ((front.append opens_space).append (opens_parenthesized _)).append (opens_appended _)

@[simp] theorem spaced_tail : Spaced (tail label type parts options) := by
  simp [-List.append_assoc, tail]

@[simp] theorem spaced_layout (k : KeyDefinition) : k.layout.Spaced := by
  cases k <;> simp [-List.append_assoc, layout]

end KeyDefinition

@[simp] theorem TimeCall.spaced_layout (c : TimeCall) : c.layout.Spaced := by
  rcases c with ⟨function, precision⟩
  cases precision <;> cases function <;> simp [TimeCall.layout]

@[simp] theorem DefaultValue.spaced_layout (d : DefaultValue) : d.layout.Spaced := by
  cases d <;> simp [DefaultValue.layout]

@[simp] theorem spaced_nullabilityWords (notNull : Bool) : (nullabilityWords notNull).Spaced :=
  spaced_words _

@[simp] theorem PlainAttributes.opens_layout (a : PlainAttributes) : Opens a.layout := by
  simp only [layout]
  repeat' apply Opens.append
  all_goals simp

@[simp] theorem PlainAttributes.spaced_layout (a : PlainAttributes) : a.layout.Spaced := by
  simp [-List.append_assoc, layout]

@[simp] theorem GeneratedAttributes.opens_layout (a : GeneratedAttributes) : Opens a.layout := by
  simp [layout]

@[simp] theorem GeneratedAttributes.spaced_layout (a : GeneratedAttributes) : a.layout.Spaced := by
  simp [-List.append_assoc, layout]

@[simp] theorem Column.spaced_layout (c : Column) : c.layout.Spaced := by
  cases c <;> simp [-List.append_assoc, Column.layout]

@[simp] theorem TableOption.spaced_layout (o : TableOption) : o.layout.Spaced := by
  have number (v : DefaultOr) : v.layout.Spaced := by cases v <;> simp [DefaultOr.layout]
  cases o <;> simp [-List.append_assoc, TableOption.layout, number]

@[simp] theorem HashPartition.spaced_layout (p : HashPartition) : p.layout.Spaced := by
  cases h : p.linear <;> simp [-List.append_assoc, HashPartition.layout, h]

@[simp] theorem KeyPartition.spaced_layout (p : KeyPartition) : p.layout.Spaced := by
  cases h : p.linear <;> simp [-List.append_assoc, KeyPartition.layout, h]

@[simp] theorem PartitionBy.spaced_layout (p : PartitionBy) : p.layout.Spaced := by
  cases p <;> simp [-List.append_assoc, PartitionBy.layout]

@[simp] theorem PartitionKind.spaced_layout (k : PartitionKind) : k.layout.Spaced := by
  cases k <;> simp [-List.append_assoc, PartitionKind.layout]

@[simp] theorem SubpartitionKind.spaced_layout (k : SubpartitionKind) : k.layout.Spaced := by
  cases k <;> simp [SubpartitionKind.layout]

@[simp] theorem PartitionValue.spaced_layout (v : PartitionValue) : v.layout.Spaced := by
  cases v <;> simp [PartitionValue.layout]

@[simp] theorem PartitionValues.spaced_layout (v : PartitionValues) : v.layout.Spaced := by
  rcases v with bound | items
  · cases bound <;> simp [-List.append_assoc, PartitionValues.layout, LessThan.layout]
  · simp [-List.append_assoc, PartitionValues.layout]

@[simp] theorem PartitionOption.spaced_layout (o : PartitionOption) : o.layout.Spaced := by
  cases o <;> simp [PartitionOption.layout]

@[simp] theorem PartitionDefinition.opens_list (ps : List PartitionDefinition) :
    Opens (list ps) :=
  (begins_parenthesized _).opens

@[simp] theorem PartitionDefinition.spaced_list (ps : List PartitionDefinition) :
    (list ps).Spaced := by
  simp [-List.append_assoc, list, layout]

@[simp] theorem Partitioning.spaced_layout (p : Partitioning) : p.layout.Spaced := by
  simp [-List.append_assoc, Partitioning.layout]

@[simp] theorem Definition.spaced_layout (d : Definition) : d.layout.Spaced := by
  cases d <;> simp [Definition.layout]

theorem CreateTable.spaced_layout (t : CreateTable) : t.layout.Spaced := by
  simp [-List.append_assoc, CreateTable.layout]

@[simp] theorem ColumnPosition.spaced_layout (p : ColumnPosition) : p.layout.Spaced := by
  cases p <;> simp [-List.append_assoc, ColumnPosition.layout]

@[simp] theorem AlterColumnAction.spaced_layout (a : AlterColumnAction) : a.layout.Spaced := by
  cases a <;> simp [-List.append_assoc, AlterColumnAction.layout]

@[simp] theorem AlterOption.spaced_layout (o : AlterOption) : o.layout.Spaced := by
  cases o <;> simp [-List.append_assoc, AlterOption.layout]

@[simp] theorem AlterPartitionOption.spaced_layout (o : AlterPartitionOption) :
    o.layout.Spaced := by
  have names (ns : PartitionNames) : ns.layout.Spaced := by
    cases ns <;> simp [PartitionNames.layout]
  cases o <;> simp [-List.append_assoc, AlterPartitionOption.layout, names]

theorem AlterTable.spaced_layout (t : AlterTable) : t.layout.Spaced := by
  have parts : ∀ l ∈ t.parts, l.Spaced := by
    simp only [AlterTable.parts, List.forall_mem_append, List.forall_mem_map]
    exact ⟨fun o _ => o.spaced_layout, fun o _ => o.spaced_layout⟩
  simpa [-List.append_assoc, AlterTable.layout] using fun _ => parts

end TableDdl
