import TableDdl.Proofs.Grammar.Gives
import TableDdl.Proofs.Number.Scaling

/-!
# Well-formed expressions

What the types of the trees do not say: lists of one or more items are not empty, an array has two
or more, names and literals can be written, numbers are finite, and only so many expressions,
negations and queries stand inside each other. Main statement: what the rules read is well formed,
with as many levels as are left.
-/
namespace TableDdl

open Grammar

variable {calls levels : Nat}

/-- The number is below `2 ^ 1024`, the first power of two that the format cannot hold, which is
`2 ^ 2098` units. -/
def Number.Binary64.Finite (x : Number.Binary64) : Prop := x.units < 2 ^ 2098

theorem Number.Binary64.finite (x : Number.Binary64) : x.Finite :=
  units_lt (Nat.add_le_add_left x.canonical.2.1 53)

-- Each expression, each negation and each query is one level; what stands in it has one less.
mutual

inductive Expression.WellFormed : Nat → Expression → Prop
  | anyOf {n : Nat} {disjuncts : List Conjunction} (some : disjuncts ≠ [])
    (each : ∀ d ∈ disjuncts, Conjunction.WellFormed n d) :
    Expression.WellFormed (n + 1) (.anyOf disjuncts)

inductive Conjunction.WellFormed : Nat → Conjunction → Prop
  | allOf {n : Nat} {conditions : List Condition} (some : conditions ≠ [])
    (each : ∀ c ∈ conditions, Condition.WellFormed n c) :
    Conjunction.WellFormed n (.allOf conditions)

inductive Condition.WellFormed : Nat → Condition → Prop
  | test {n : Nat} {operand : Operand} {predicate : Option Predicate}
    (left : Operand.WellFormed n operand) (test : ∀ p ∈ predicate, Predicate.WellFormed n p) :
    Condition.WellFormed n (.test operand predicate)
  | not {n : Nat} {condition : Condition} (inner : Condition.WellFormed n condition) :
    Condition.WellFormed (n + 1) (.not condition)
  | exists {n : Nat} {query : Select} (inner : Select.WellFormed n query) :
    Condition.WellFormed n (.exists query)

inductive Predicate.WellFormed : Nat → Predicate → Prop
  | compare {n : Nat} {op : CompareOp} {right : Comparand} (inner : Comparand.WellFormed n right) :
    Predicate.WellFormed n (.compare op right)
  | isNull {n : Nat} {negated : Bool} : Predicate.WellFormed n (.isNull negated)
  | isDistinctFrom {n : Nat} {negated : Bool} {other : Operand}
    (right : Operand.WellFormed n other) : Predicate.WellFormed n (.isDistinctFrom negated other)
  | between {n : Nat} {negated : Bool} {low high : Operand} (lower : Operand.WellFormed n low)
    (upper : Operand.WellFormed n high) : Predicate.WellFormed n (.between negated low high)
  | inSelect {n : Nat} {negated : Bool} {query : Select} (inner : Select.WellFormed n query) :
    Predicate.WellFormed n (.inSelect negated query)
  | inList {n : Nat} {negated : Bool} {items : List Expression} (some : items ≠ [])
    (each : ∀ e ∈ items, Expression.WellFormed n e) : Predicate.WellFormed n (.inList negated items)
  | like {n : Nat} {negated : Bool} {pattern : Operand} (right : Operand.WellFormed n pattern) :
    Predicate.WellFormed n (.like negated pattern)

inductive Comparand.WellFormed : Nat → Comparand → Prop
  | operand {n : Nat} {operand : Operand} (inner : Operand.WellFormed n operand) :
    Comparand.WellFormed n (.operand operand)
  | quantified {n : Nat} {quantifier : Quantifier} {query : Select}
    (inner : Select.WellFormed n query) : Comparand.WellFormed n (.quantified quantifier query)

inductive Operand.WellFormed : Nat → Operand → Prop
  | concat {n : Nat} {parts : List Summand} (some : parts ≠ [])
    (each : ∀ s ∈ parts, Summand.WellFormed n s) : Operand.WellFormed n (.concat parts)

inductive Summand.WellFormed : Nat → Summand → Prop
  | sum {n : Nat} {first : Factor} {rest : List Addend} (head : Factor.WellFormed n first)
    (each : ∀ a ∈ rest, Addend.WellFormed n a) : Summand.WellFormed n (.sum first rest)

inductive Addend.WellFormed : Nat → Addend → Prop
  | mk {n : Nat} {op : AddOp} {factor : Factor} (inner : Factor.WellFormed n factor) :
    Addend.WellFormed n (.mk op factor)

inductive Factor.WellFormed : Nat → Factor → Prop
  | product {n : Nat} {first : Term} {rest : List Multiplier} (head : Term.WellFormed n first)
    (each : ∀ m ∈ rest, Multiplier.WellFormed n m) : Factor.WellFormed n (.product first rest)

inductive Multiplier.WellFormed : Nat → Multiplier → Prop
  | mk {n : Nat} {op : MultiplyOp} {term : Term} (inner : Term.WellFormed n term) :
    Multiplier.WellFormed n (.mk op term)

inductive Term.WellFormed : Nat → Term → Prop
  | select {n : Nat} {query : Select} (inner : Select.WellFormed n query) :
    Term.WellFormed n (.select query)
  | wildcard {n : Nat} : Term.WellFormed n .wildcard
  | number {n : Nat} {x : Number.Binary64} (finite : x.Finite) : Term.WellFormed n (.number x)
  | string {n : Nat} {content : String} (literal : LiteralOk content) :
    Term.WellFormed n (.string content)
  | boolean {n : Nat} {b : Bool} : Term.WellFormed n (.boolean b)
  | null {n : Nat} : Term.WellFormed n .null
  | array {n : Nat} {items : List Expression} (two : 2 ≤ items.length)
    (each : ∀ e ∈ items, Expression.WellFormed n e) : Term.WellFormed n (.array items)
  | name {n : Nat} {path : List String} (names : OneOrMore NameOk path) :
    Term.WellFormed n (.name path)
  | call {n : Nat} {path : List String} {arguments : List Expression} (names : OneOrMore NameOk path)
    (each : ∀ e ∈ arguments, Expression.WellFormed n e) : Term.WellFormed n (.call path arguments)
  | grouped {n : Nat} {inner : Expression} (inside : Expression.WellFormed n inner) :
    Term.WellFormed n (.grouped inner)

inductive Select.WellFormed : Nat → Select → Prop
  | mk {n : Nat} {top : Option Term} {quantifier : Option SelectQuantifier}
    {projection : Projection} {sources : List TableExpression}
    {filter limit offset grouping : Option Expression}
    (first : ∀ t ∈ top, Term.WellFormed n t) (items : Projection.WellFormed n projection)
    (some : sources ≠ []) (each : ∀ t ∈ sources, TableExpression.WellFormed n t)
    (kept : ∀ e ∈ filter, Expression.WellFormed n e)
    (atMost : ∀ e ∈ limit, Expression.WellFormed n e)
    (skipped : ∀ e ∈ offset, Expression.WellFormed n e)
    (groups : ∀ e ∈ grouping, Expression.WellFormed n e) :
    Select.WellFormed (n + 1)
      (.mk top quantifier projection sources filter limit offset grouping)

inductive Projection.WellFormed : Nat → Projection → Prop
  | all {n : Nat} : Projection.WellFormed n .all
  | items {n : Nat} {items : List AliasedExpression} (some : items ≠ [])
    (each : ∀ a ∈ items, AliasedExpression.WellFormed n a) : Projection.WellFormed n (.items items)

inductive AliasedExpression.WellFormed : Nat → AliasedExpression → Prop
  | mk {n : Nat} {value : Expression} {label : Option String} (inner : Expression.WellFormed n value)
    (name : ∀ l ∈ label, NameOk l) : AliasedExpression.WellFormed n (.mk value label)

inductive TableExpression.WellFormed : Nat → TableExpression → Prop
  | mk {n : Nat} {source : TableSource} {label : Option String}
    (inner : TableSource.WellFormed n source) (name : ∀ l ∈ label, NameOk l) :
    TableExpression.WellFormed n (.mk source label)

inductive TableSource.WellFormed : Nat → TableSource → Prop
  | values {n : Nat} {items : List Expression} (some : items ≠ [])
    (each : ∀ e ∈ items, Expression.WellFormed n e) : TableSource.WellFormed n (.values items)
  | subquery {n : Nat} {query : Select} (inner : Select.WellFormed n query) :
    TableSource.WellFormed n (.subquery query)
  | table {n : Nat} {path : List String} (names : OneOrMore NameOk path) :
    TableSource.WellFormed n (.table path)

end

/-- With so many calls, the recursive rules give trees that are well formed with the levels that
are left. -/
structure RecursionGives (calls : Nat) : Prop where
  expression : ∀ levels, expression.Gives calls levels (Expression.WellFormed levels)
  condition : ∀ levels, Rule.Gives calls levels (Condition.WellFormed levels) (.call .condition)
  term : ∀ levels, term.Gives calls levels (Term.WellFormed levels)
  select : ∀ levels, select.Gives calls levels (Select.WellFormed levels)

namespace RecursionGives

section Rules

variable (h : RecursionGives calls)

include h

theorem factor : factor.Gives calls levels (Factor.WellFormed levels) := by
  have multiplier : Rule.Gives calls levels (Multiplier.WellFormed levels)
      (Multiplier.mk <$> spelled <*> Grammar.term) :=
    .seq (.map (.any _) fun _ _ _ => .mk) (h.term levels)
  exact .seq ((h.term levels).map fun _ head _ => .product head) multiplier.many

theorem summand : summand.Gives calls levels (Summand.WellFormed levels) := by
  have addend : Rule.Gives calls levels (Addend.WellFormed levels)
      (Addend.mk <$> spelled <*> Grammar.factor) :=
    .seq (.map (.any _) fun _ _ _ => .mk) h.factor
  exact .seq (h.factor.map fun _ head _ => .sum head) addend.many

theorem operand : operand.Gives calls levels (Operand.WellFormed levels) :=
  (h.summand.sepBy1 _).map fun _ parts => .concat parts.1 parts.2

theorem comparand : comparand.Gives calls levels (Comparand.WellFormed levels) :=
  .orElse (.seq (.map (.any _) fun _ _ _ => .quantified) (h.select levels).parenthesized)
    (h.operand.map fun _ => .operand)

theorem isTest :
    isTest.Gives calls levels fun test => ∀ b, Predicate.WellFormed levels (test b) :=
  .orElse (.as (fun _ => .isNull) _) (.map (.seqRight _ h.operand) fun _ right _ =>
    .isDistinctFrom right)

theorem negatable (negated : Bool) :
    (negatable negated).Gives calls levels (Predicate.WellFormed levels) := by
  have between : Rule.Gives calls levels (Predicate.WellFormed levels)
      (Predicate.between negated <$> (literal "BETWEEN" *> Grammar.operand)
        <*> (literal "AND" *> Grammar.operand)) :=
    .seq (.map (.seqRight _ h.operand) fun _ lower _ => .between lower) (.seqRight _ h.operand)
  have query : Rule.Gives calls levels (Predicate.WellFormed levels)
      (Predicate.inSelect negated <$> Grammar.select) :=
    (h.select levels).map fun _ => .inSelect
  have items : Rule.Gives calls levels (Predicate.WellFormed levels)
      (Predicate.inList negated <$> commaList Grammar.expression) :=
    (h.expression levels).commaList.map fun _ items => .inList items.1 items.2
  exact between.orElse (.orElse (.seqRight _ (query.orElse items).parenthesized)
    (.map (.seqRight _ h.operand) fun _ => .like))

theorem predicate : predicate.Gives calls levels (Predicate.WellFormed levels) := by
  have compare : Rule.Gives calls levels (Predicate.WellFormed levels)
      (Predicate.compare <$> compareOp <*> Grammar.comparand) :=
    .seq (.map (.any _) fun _ _ _ => .compare) h.comparand
  have is : Rule.Gives calls levels (Predicate.WellFormed levels)
      ((fun negated test => test negated) <$> (literal "IS" *> (literal "NOT").flag)
        <*> Grammar.isTest) :=
    .seq (.map (.any _) fun negated _ _ tests => tests negated) h.isTest
  exact compare.orElse (is.orElse (.orElse (.seqRight _ (h.negatable true)) (h.negatable false)))

omit h in
theorem nameOk_timeFunctionName : timeFunctionName.Gives calls levels NameOk :=
  .orElse (.as (by decide) _) (.orElse (.as (by decide) _)
    (.orElse (.as (by decide) _) (.as (by decide) _)))

theorem termRule : termRule.Gives calls levels (Term.WellFormed levels) := by
  have constants : Rule.Gives calls levels (Term.WellFormed levels)
      (.oneOf ((literal "*").as .wildcard) [Term.number <$> number, Term.string <$> string,
        Term.boolean <$> boolean, (literal "NULL").as .null]) := by
    refine .oneOf (.as .wildcard _) ?_
    simp only [List.forall_mem_cons, List.not_mem_nil, false_implies, implies_true, and_true]
    exact ⟨.map (.any _) fun x _ => .number x.finite, .map .string fun _ => .string,
      .map (.any _) fun _ _ => .boolean, .as .null _⟩
  have head : Rule.Gives calls levels NameOk (identifier <|> timeFunctionName) :=
    .orElse .identifier nameOk_timeFunctionName
  have rest : Rule.Gives calls levels (fun names => ∀ name ∈ names, NameOk name)
      (literal "." *> identifier).many :=
    .many (.seqRight _ .identifier)
  have reference : Rule.Gives calls levels (Term.WellFormed levels)
      ((fun head rest => referenceTerm (head :: rest)) <$> (identifier <|> timeFunctionName)
        <*> (literal "." *> identifier).many
        <*> (parenthesized (commaList0 Grammar.expression)).optional) := by
    refine .seq (.seq (head.map ?_) rest) (h.expression levels).commaList0.parenthesized.optional
    intro name ok names oks arguments each
    have path : OneOrMore NameOk (name :: names) :=
      ⟨List.cons_ne_nil _ _, List.forall_mem_cons.2 ⟨ok, oks⟩⟩
    cases arguments with
    | none => exact .name path
    | some es => exact .call path (each es rfl)
  have grouped : Rule.Gives calls levels (Term.WellFormed levels)
      (parenthesizedTerm <$> parenthesized (commaList Grammar.expression)) := by
    refine (h.expression levels).commaList.parenthesized.map fun items all => ?_
    match items, all with
    | [], all => exact absurd rfl all.1
    | [e], all => exact .grouped (all.2 e (by simp))
    | _ :: _ :: _, all => exact .array (by simp) all.2
  exact .orElse ((h.select levels).map fun _ => .select)
    (constants.orElse (reference.orElse grouped))

end Rules

theorem conditionRule (h : RecursionGives calls) (levels : Nat) :
    conditionRule.Gives calls levels (Condition.WellFormed levels) := by
  have not : Rule.Gives calls levels (Condition.WellFormed levels)
      (Condition.not <$> (literal "NOT" *> (Rule.call .condition).nested)) := by
    refine .map (.seqRight _ (.nested h.condition)) fun c inside => ?_
    obtain ⟨inner, rfl, ok⟩ := inside
    exact .not ok
  have exist : Rule.Gives calls levels (Condition.WellFormed levels)
      (Condition.exists <$> (literal "EXISTS" *> parenthesized Grammar.select)) :=
    .map (.seqRight _ (h.select levels).parenthesized) fun _ => .exists
  exact not.orElse (exist.orElse (.seq (h.operand.map fun _ left _ => .test left)
    h.predicate.optional))

theorem conjunction (h : RecursionGives calls) (levels : Nat) :
    conjunction.Gives calls levels (Conjunction.WellFormed levels) :=
  ((h.condition levels).sepBy1 _).map fun _ conditions => .allOf conditions.1 conditions.2

theorem expressionRule (h : RecursionGives calls) (levels : Nat) :
    expressionRule.Gives calls levels (Expression.WellFormed levels) := by
  refine (Rule.Gives.nested fun n => ((h.conjunction n).sepBy1 _).map
    (Q := Expression.WellFormed (n + 1)) fun _ disjuncts => .anyOf disjuncts.1 disjuncts.2).mono
    fun e inside => ?_
  obtain ⟨inner, rfl, ok⟩ := inside
  exact ok

theorem label : label.Gives calls levels fun o => ∀ l ∈ o, NameOk l :=
  .optional (.seqRight _ .identifier)

section Rules

variable (h : RecursionGives calls)

include h

theorem projection : projection.Gives calls levels (Projection.WellFormed levels) := by
  have item : Rule.Gives calls levels (AliasedExpression.WellFormed levels)
      (AliasedExpression.mk <$> Grammar.expression <*> Grammar.label) :=
    .seq ((h.expression levels).map fun _ value _ => .mk value) label
  exact .orElse (.as .all _) (item.commaList.map fun _ items => .items items.1 items.2)

theorem tableSource : tableSource.Gives calls levels (TableSource.WellFormed levels) := by
  have values : Rule.Gives calls levels (TableSource.WellFormed levels)
      (TableSource.values <$> (literal "VALUES" *> parenthesized (commaList Grammar.expression))) :=
    .map (.seqRight _ (h.expression levels).commaList.parenthesized) fun _ items =>
      .values items.1 items.2
  have path : Rule.Gives calls levels (OneOrMore NameOk) (identifier.sepBy1 (literal ".")) :=
    .sepBy1 .identifier _
  exact values.orElse (.orElse ((h.select levels).parenthesized.map fun _ => .subquery)
    (path.map fun _ => .table))

theorem selectRule (levels : Nat) :
    selectRule.Gives calls levels (Select.WellFormed levels) := by
  have body (n : Nat) : selectBody.Gives calls n (Select.WellFormed (n + 1)) := by
    have source : Rule.Gives calls n (TableExpression.WellFormed n)
        (TableExpression.mk <$> Grammar.tableSource <*> Grammar.label) :=
      .seq (h.tableSource.map fun _ inner _ => .mk inner) label
    have clause (key : DdlRule String) : Rule.Gives calls n
        (fun o => ∀ e ∈ o, Expression.WellFormed n e) (key *> Grammar.expression).optional :=
      .optional (.seqRight _ (h.expression n))
    refine .seq (.seq (.seq (.seq (.seq (.seq (.seq
      (.map (.optional (.seqRight _ (h.term n))) ?_) (.any _)) h.projection)
      (.seqRight _ source.commaList)) (clause _)) (clause _)) (clause _)) (clause _)
    intro _ top _ _ _ items _ sources _ kept _ atMost _ skipped _ groups
    exact .mk top items sources.1 sources.2 kept atMost skipped groups
  refine .seqRight _ ((Rule.Gives.nested body).mono fun query inside => ?_)
  obtain ⟨inner, rfl, ok⟩ := inside
  exact ok

end Rules

theorem of_calls (calls : Nat) : RecursionGives calls := by
  induction calls with
  | zero => exact ⟨fun _ => .unanswered, fun _ => .unanswered, fun _ => .unanswered,
      fun _ => .unanswered⟩
  | succ calls ih =>
    exact ⟨fun n => .call (ih.expressionRule n), fun n => .call (ih.conditionRule n),
      fun n => .call ih.termRule, fun n => .call (ih.selectRule n)⟩

end RecursionGives

theorem gives_expression : expression.Gives calls levels (Expression.WellFormed levels) :=
  (RecursionGives.of_calls calls).expression levels

end TableDdl
