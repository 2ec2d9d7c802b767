import TableDdl.Expression.Layout
import TableDdl.Proofs.Layout.Spacing

/-!
# Spacing of expressions and queries

No lexeme of a written expression runs into the next.
-/
namespace TableDdl

open Layout

namespace Layout

/-- A point may stand between names. -/
theorem isChain_path (first : Lexeme) (named : first.isNamed = true) (rest : List String) :
    Spaced (.lexeme first :: rest.flatMap fun part => symbol "." ++ name part) := by
  induction rest generalizing first with
  | nil => exact spaced_singleton _
  | cons part rest ih =>
    refine List.isChain_cons_cons.2 ⟨by simp [Piece.meets, Lexeme.meets, named], ?_⟩
    exact List.isChain_cons_cons.2 ⟨rfl, ih _ rfl⟩

@[simp] theorem spaced_path (parts : List String) : Spaced (path parts) := by
  cases parts with
  | nil => exact spaced_nil
  | cons head rest =>
    simp only [path]
    split
    · exact isChain_path (.word head) rfl rest
    · exact isChain_path (.name head) rfl rest

@[simp] theorem spaced_table (parts : List String) :
    Spaced (joined (symbol ".") (parts.map name)) := by
  cases parts with
  | nil => exact spaced_nil
  | cons head rest =>
    have same (head : String) : joined (symbol ".") (name head :: rest.map name) =
        .lexeme (.name head) :: rest.flatMap fun part => symbol "." ++ name part := by
      induction rest generalizing head with
      | nil => rfl
      | cons part rest ih => rw [List.map_cons, joined, ih part]; rfl
    rw [List.map_cons, same]
    exact isChain_path _ rfl rest

@[simp] theorem opens_labelClause (label : Option String) : Opens (labelClause label) :=
  opens_given label _

@[simp] theorem spaced_labelClause (label : Option String) : Spaced (labelClause label) := by
  simp [-List.append_assoc, labelClause]

theorem spaced_infix {text : String} {ls : List Layout} {l : Layout}
    (one : l = word text ∨ l = symbol text) (all : ∀ l ∈ ls, Spaced l) : Spaced (joined (space ++ l ++ space) ls) := by
  refine (spaced_joined ((begins_space.append _).append _) (closes_append_space _) ?_).2 all
  rcases one with rfl | rfl <;> simp [-List.append_assoc]

end Layout

@[simp] theorem Predicate.opens_layoutAfter (predicate : Option Predicate) :
    Opens (layoutAfter predicate) := by
  cases predicate <;> simp [layoutAfter]

@[simp] theorem Addend.opens_layouts (rest : List Addend) : Opens (layouts rest) := by
  cases rest with
  | nil => simp [layouts]
  | cons a rest => cases a; simp [layouts, layout]

@[simp] theorem Multiplier.opens_layouts (rest : List Multiplier) : Opens (layouts rest) := by
  cases rest with
  | nil => simp [layouts]
  | cons m rest => cases m; simp [layouts, layout]

@[simp] theorem Term.opens_layoutTop (top : Option Term) : Opens (layoutTop top) := by
  cases top <;> simp [layoutTop]

@[simp] theorem Expression.opens_clause (keywords : List String) (e : Option Expression) :
    Opens (clause keywords e) := by
  cases e <;> simp [clause]

mutual

@[simp] theorem Expression.spaced_layout : ∀ e : Expression, e.layout.Spaced
  | .anyOf disjuncts => by
    simpa only [Expression.layout] using
      spaced_infix (.inl rfl) (Conjunction.spaced_layouts disjuncts)

theorem Expression.spaced_layouts : ∀ es : List Expression, ∀ l ∈ Expression.layouts es, l.Spaced
  | [] => by simp [Expression.layouts]
  | e :: es => List.forall_mem_cons.2 ⟨Expression.spaced_layout e, Expression.spaced_layouts es⟩

theorem Expression.spaced_clause (keywords : List String) :
    ∀ e : Option Expression, (Expression.clause keywords e).Spaced
  | none => by simp [Expression.clause]
  | some e => by simp [-List.append_assoc, Expression.clause, Expression.spaced_layout e]

theorem Conjunction.spaced_layout : ∀ c : Conjunction, c.layout.Spaced
  | .allOf conditions => by
    simpa only [Conjunction.layout] using
      spaced_infix (.inl rfl) (Condition.spaced_layouts conditions)

theorem Conjunction.spaced_layouts :
    ∀ cs : List Conjunction, ∀ l ∈ Conjunction.layouts cs, l.Spaced
  | [] => by simp [Conjunction.layouts]
  | c :: cs => List.forall_mem_cons.2 ⟨Conjunction.spaced_layout c, Conjunction.spaced_layouts cs⟩

theorem Condition.spaced_layout : ∀ c : Condition, c.layout.Spaced
  | .test operand predicate => by
    simp [Condition.layout, Operand.spaced_layout operand, Predicate.spaced_layoutAfter predicate]
  | .not condition => by
    simp [-List.append_assoc, Condition.layout, Condition.spaced_layout condition]
  | .exists query => by simp [-List.append_assoc, Condition.layout, Select.spaced_layout query]

theorem Condition.spaced_layouts : ∀ cs : List Condition, ∀ l ∈ Condition.layouts cs, l.Spaced
  | [] => by simp [Condition.layouts]
  | c :: cs => List.forall_mem_cons.2 ⟨Condition.spaced_layout c, Condition.spaced_layouts cs⟩

theorem Predicate.spaced_layout : ∀ p : Predicate, p.layout.Spaced
  | .compare op right => by
    simp [-List.append_assoc, Predicate.layout, Comparand.spaced_layout right]
  | .isNull negated => by
    cases negated <;> simp [-List.append_assoc, Predicate.layout, negation]
  | .isDistinctFrom negated other => by
    cases negated <;>
      simp [-List.append_assoc, Predicate.layout, negation, Operand.spaced_layout other]
  | .between negated low high => by
    cases negated <;>
      simp [-List.append_assoc, Predicate.layout, negation, Operand.spaced_layout low,
        Operand.spaced_layout high]
  | .inSelect negated query => by
    cases negated <;>
      simp [-List.append_assoc, Predicate.layout, negation, Select.spaced_layout query]
  | .inList negated items => by
    have spaced := Expression.spaced_layouts items
    cases negated <;> simpa [-List.append_assoc, Predicate.layout, negation] using spaced
  | .like negated pattern => by
    cases negated <;>
      simp [-List.append_assoc, Predicate.layout, negation, Operand.spaced_layout pattern]

theorem Predicate.spaced_layoutAfter :
    ∀ p : Option Predicate, (Predicate.layoutAfter p).Spaced
  | none => by simp [Predicate.layoutAfter]
  | some p => by simp [Predicate.layoutAfter, Predicate.spaced_layout p]

theorem Comparand.spaced_layout : ∀ c : Comparand, c.layout.Spaced
  | .operand operand => Operand.spaced_layout operand
  | .quantified quantifier query => by
    simp [-List.append_assoc, Comparand.layout, Select.spaced_layout query]

theorem Operand.spaced_layout : ∀ o : Operand, o.layout.Spaced
  | .concat parts => by
    simpa only [Operand.layout] using spaced_infix (.inr rfl) (Summand.spaced_layouts parts)

theorem Summand.spaced_layout : ∀ s : Summand, s.layout.Spaced
  | .sum first rest => by
    simp [Summand.layout, Factor.spaced_layout first, Addend.spaced_layouts rest]

theorem Summand.spaced_layouts : ∀ ss : List Summand, ∀ l ∈ Summand.layouts ss, l.Spaced
  | [] => by simp [Summand.layouts]
  | s :: ss => List.forall_mem_cons.2 ⟨Summand.spaced_layout s, Summand.spaced_layouts ss⟩

theorem Addend.spaced_layout : ∀ a : Addend, a.layout.Spaced
  | .mk op factor => by simp [-List.append_assoc, Addend.layout, Factor.spaced_layout factor]

theorem Addend.spaced_layouts : ∀ rest : List Addend, (Addend.layouts rest).Spaced
  | [] => by simp [Addend.layouts]
  | a :: rest => by
    simp [Addend.layouts, Addend.spaced_layout a, Addend.spaced_layouts rest]

theorem Factor.spaced_layout : ∀ f : Factor, f.layout.Spaced
  | .product first rest => by
    simp [Factor.layout, Term.spaced_layout first, Multiplier.spaced_layouts rest]

theorem Multiplier.spaced_layout : ∀ m : Multiplier, m.layout.Spaced
  | .mk op term => by simp [-List.append_assoc, Multiplier.layout, Term.spaced_layout term]

theorem Multiplier.spaced_layouts : ∀ rest : List Multiplier, (Multiplier.layouts rest).Spaced
  | [] => by simp [Multiplier.layouts]
  | m :: rest => by
    simp [Multiplier.layouts, Multiplier.spaced_layout m, Multiplier.spaced_layouts rest]

theorem Term.spaced_layout : ∀ t : Term, t.layout.Spaced
  | .select query => Select.spaced_layout query
  | .wildcard => spaced_symbol _
  | .number x => spaced_number x
  | .string content => spaced_string content
  | .boolean b => spaced_boolean b
  | .null => spaced_word _
  | .array items => by
    have spaced := Expression.spaced_layouts items
    simpa [Term.layout] using spaced
  | .name path => spaced_path path
  | .call path arguments => by
    have spaced := Expression.spaced_layouts arguments
    simpa [Term.layout] using spaced
  | .grouped inner => by simp [Term.layout, Expression.spaced_layout inner]

theorem Term.spaced_layoutTop : ∀ t : Option Term, (Term.layoutTop t).Spaced
  | none => by simp [Term.layoutTop]
  | some t => by simp [-List.append_assoc, Term.layoutTop, Term.spaced_layout t]

theorem Select.spaced_layout : ∀ s : Select, s.layout.Spaced
  | .mk top quantifier projection sources filter limit offset grouping => by
    have spaced := TableExpression.spaced_layouts sources
    simpa [-List.append_assoc, Select.layout, Term.spaced_layoutTop top,
      Projection.spaced_layout projection, Expression.spaced_clause _ filter,
      Expression.spaced_clause _ limit, Expression.spaced_clause _ offset,
      Expression.spaced_clause _ grouping] using spaced

theorem Projection.spaced_layout : ∀ p : Projection, p.layout.Spaced
  | .all => spaced_symbol _
  | .items items => (spaced_commaSeparated _).2 (AliasedExpression.spaced_layouts items)

theorem AliasedExpression.spaced_layout : ∀ a : AliasedExpression, a.layout.Spaced
  | .mk value label => by simp [AliasedExpression.layout, Expression.spaced_layout value]

theorem AliasedExpression.spaced_layouts :
    ∀ rest : List AliasedExpression, ∀ l ∈ AliasedExpression.layouts rest, l.Spaced
  | [] => by simp [AliasedExpression.layouts]
  | a :: rest =>
    List.forall_mem_cons.2 ⟨AliasedExpression.spaced_layout a, AliasedExpression.spaced_layouts rest⟩

theorem TableExpression.spaced_layout : ∀ t : TableExpression, t.layout.Spaced
  | .mk source label => by simp [TableExpression.layout, TableSource.spaced_layout source]

theorem TableExpression.spaced_layouts :
    ∀ ts : List TableExpression, ∀ l ∈ TableExpression.layouts ts, l.Spaced
  | [] => by simp [TableExpression.layouts]
  | t :: ts =>
    List.forall_mem_cons.2 ⟨TableExpression.spaced_layout t, TableExpression.spaced_layouts ts⟩

theorem TableSource.spaced_layout : ∀ s : TableSource, s.layout.Spaced
  | .values items => by
    have spaced := Expression.spaced_layouts items
    simpa [-List.append_assoc, TableSource.layout] using spaced
  | .subquery query => by simp [TableSource.layout, Select.spaced_layout query]
  | .table path => spaced_table path

end

end TableDdl
