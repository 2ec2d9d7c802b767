import TableDdl.Proofs.Expression.Renamed
import TableDdl.Proofs.Grammar.Carries

/-!
# Names in expressions

The rules for expressions and queries carry names. The four recursive rules do so with any number
of calls, by induction on that number, since each rule carries names where these four do.
-/
namespace TableDdl

open Grammar Relator

variable {keywords : Keywords} {f : String → String} {calls : Nat}

theorem Term.renamed_referenceTerm (f : String → String) (path : List String)
    (arguments : Option (List Expression)) :
    (referenceTerm path arguments).renamed f =
      referenceTerm (path.map f) (arguments.map (List.map (Expression.renamed f))) := by
  cases arguments <;> simp [referenceTerm, Term.renamed]

theorem Term.renamed_parenthesizedTerm (f : String → String) (items : List Expression) :
    (parenthesizedTerm items).renamed f = parenthesizedTerm (items.map (Expression.renamed f)) := by
  match items with
  | [] => rfl
  | [_] => rfl
  | _ :: _ :: _ => simp [parenthesizedTerm, Term.renamed]

/-- The recursive rules carry names with so many calls. -/
structure RecursionCarries (keywords : Keywords) (f : String → String) (calls : Nat) : Prop where
  expression : expression.Carries keywords f calls (SameUnder (Expression.renamed f))
  condition : Rule.Carries keywords f calls (SameUnder (Condition.renamed f)) (.call .condition)
  term : term.Carries keywords f calls (SameUnder (Term.renamed f))
  select : select.Carries keywords f calls (SameUnder (Select.renamed f))

namespace RecursionCarries

section Rules

variable (h : RecursionCarries keywords f calls)

include h

theorem factor : factor.Carries keywords f calls (SameUnder (Factor.renamed f)) := by
  have multiplier : Rule.Carries keywords f calls (SameUnder (Multiplier.renamed f))
      (Multiplier.mk <$> spelled <*> Grammar.term) :=
    .last (.first (.kept rfl) (by simp [Multiplier.renamed])) h.term
  exact .last (h.term.first (by simp [Factor.renamed])) multiplier.many

theorem summand : summand.Carries keywords f calls (SameUnder (Summand.renamed f)) := by
  have addend : Rule.Carries keywords f calls (SameUnder (Addend.renamed f))
      (Addend.mk <$> spelled <*> Grammar.factor) :=
    .last (.first (.kept rfl) (by simp [Addend.renamed])) h.factor
  exact .last (h.factor.first (by simp [Summand.renamed])) addend.many

theorem operand : operand.Carries keywords f calls (SameUnder (Operand.renamed f)) :=
  (h.summand.sepBy1 (.of_nameless rfl)).only (by simp [Operand.renamed])

theorem comparand : comparand.Carries keywords f calls (SameUnder (Comparand.renamed f)) :=
  .orElse (.last (.first (.kept rfl) (by simp [Comparand.renamed])) h.select.parenthesized)
    (h.operand.only (by simp [Comparand.renamed]))

/-- The test is still to be told whether it is negated. -/
theorem isTest :
    isTest.Carries keywords f calls (Shared (Through id (Becomes (Predicate.renamed f)))) := by
  have null : Through id (Becomes (Predicate.renamed f)) Predicate.isNull Predicate.isNull := by
    simp [Predicate.renamed]
  refine .orElse (.as (.of_nameless (r := literal "NULL") rfl) ⟨_, null, null⟩)
    (.first (.seqRight (.of_nameless rfl) h.operand) ?_)
  simp [Predicate.renamed]

theorem negatable (negated : Bool) :
    (negatable negated).Carries keywords f calls (SameUnder (Predicate.renamed f)) := by
  have between : Rule.Carries keywords f calls (SameUnder (Predicate.renamed f))
      (Predicate.between negated <$> (literal "BETWEEN" *> Grammar.operand)
        <*> (literal "AND" *> Grammar.operand)) :=
    .last (.first (.seqRight (.of_nameless rfl) h.operand) (by simp [Predicate.renamed]))
      (.seqRight (.of_nameless rfl) h.operand)
  have query : Rule.Carries keywords f calls (SameUnder (Predicate.renamed f))
      (Predicate.inSelect negated <$> Grammar.select) :=
    h.select.only (by simp [Predicate.renamed])
  have items : Rule.Carries keywords f calls (SameUnder (Predicate.renamed f))
      (Predicate.inList negated <$> commaList Grammar.expression) :=
    h.expression.commaList.only (by simp [Predicate.renamed])
  exact between.orElse (.orElse (.seqRight (.of_nameless rfl) (query.orElse items).parenthesized)
    (.only (.seqRight (.of_nameless rfl) h.operand) (by simp [Predicate.renamed])))

theorem predicate : predicate.Carries keywords f calls (SameUnder (Predicate.renamed f)) := by
  have compare : Rule.Carries keywords f calls (SameUnder (Predicate.renamed f))
      (Predicate.compare <$> compareOp <*> Grammar.comparand) :=
    .last (.first (.kept rfl) (by simp [Predicate.renamed])) h.comparand
  have is : Rule.Carries keywords f calls (SameUnder (Predicate.renamed f))
      ((fun negated test => test negated) <$> (literal "IS" *> (literal "NOT").flag)
        <*> Grammar.isTest) :=
    .seq (.map (.kept rfl) fun _ _ negated _ _ test => (test.apply negated).sameUnder) h.isTest
  exact compare.orElse (is.orElse (.orElse (.seqRight (.of_nameless rfl) (h.negatable true))
    (h.negatable false)))

theorem termRule : termRule.Carries keywords f calls (SameUnder (Term.renamed f)) := by
  have constants : Rule.Carries keywords f calls (SameUnder (Term.renamed f))
      (.oneOf ((literal "*").as .wildcard) [Term.number <$> number, Term.string <$> string,
        Term.boolean <$> boolean, (literal "NULL").as .null]) :=
    .fixed rfl
  have head : Rule.Carries keywords f calls (SameUnder f) (identifier <|> timeFunctionName) :=
    .orElse .identifier (.fixed rfl)
  have path : Rule.Carries keywords f calls (SameUnder (List.map f))
      (literal "." *> identifier).many :=
    .many (.seqRight (.of_nameless rfl) .identifier)
  have arguments := h.expression.commaList0.parenthesized.optional
  have reference : Rule.Carries keywords f calls (SameUnder (Term.renamed f))
      ((fun head rest => referenceTerm (head :: rest)) <$> (identifier <|> timeFunctionName)
        <*> (literal "." *> identifier).many
        <*> (parenthesized (commaList0 Grammar.expression)).optional) :=
    .last (.next (head.first (by simp [Term.renamed_referenceTerm])) path) arguments
  exact .orElse (h.select.only (by simp [Term.renamed])) (constants.orElse (reference.orElse
    (h.expression.commaList.parenthesized.only (Term.renamed_parenthesizedTerm f))))

theorem conditionRule :
    conditionRule.Carries keywords f calls (SameUnder (Condition.renamed f)) := by
  have not : Rule.Carries keywords f calls (SameUnder (Condition.renamed f))
      (Condition.not <$> (literal "NOT" *> (Rule.call .condition).nested)) :=
    .only (.seqRight (.of_nameless rfl) h.condition.nested) (by simp [Condition.renamed])
  have exist : Rule.Carries keywords f calls (SameUnder (Condition.renamed f))
      (Condition.exists <$> (literal "EXISTS" *> parenthesized Grammar.select)) :=
    .only (.seqRight (.of_nameless rfl) h.select.parenthesized) (by simp [Condition.renamed])
  exact not.orElse (exist.orElse
    (.last (h.operand.first (by simp [Condition.renamed])) h.predicate.optional))

theorem conjunction : conjunction.Carries keywords f calls (SameUnder (Conjunction.renamed f)) :=
  (h.condition.sepBy1 (.of_nameless rfl)).only (by simp [Conjunction.renamed])

theorem expressionRule :
    expressionRule.Carries keywords f calls (SameUnder (Expression.renamed f)) :=
  .nested ((h.conjunction.sepBy1 (.of_nameless rfl)).only (by simp [Expression.renamed]))

omit h in
theorem label : label.Carries keywords f calls (SameUnder (Option.map f)) :=
  .optional (.seqRight (.of_nameless rfl) .identifier)

theorem projection : projection.Carries keywords f calls (SameUnder (Projection.renamed f)) := by
  have item : Rule.Carries keywords f calls (SameUnder (AliasedExpression.renamed f))
      (AliasedExpression.mk <$> Grammar.expression <*> Grammar.label) :=
    .last (h.expression.first (by simp [AliasedExpression.renamed])) label
  exact .orElse (.fixed rfl) (item.commaList.only (by simp [Projection.renamed]))

theorem tableSource : tableSource.Carries keywords f calls (SameUnder (TableSource.renamed f)) := by
  have values : Rule.Carries keywords f calls (SameUnder (TableSource.renamed f))
      (TableSource.values <$> (literal "VALUES" *> parenthesized (commaList Grammar.expression))) :=
    .only (.seqRight (.of_nameless rfl) h.expression.commaList.parenthesized)
      (by simp [TableSource.renamed])
  have path : Rule.Carries keywords f calls (SameUnder (List.map f))
      (identifier.sepBy1 (literal ".")) :=
    .sepBy1 .identifier (.of_nameless rfl)
  exact values.orElse (.orElse (h.select.parenthesized.only (by simp [TableSource.renamed]))
    (path.only (by simp [TableSource.renamed])))

theorem selectRule : selectRule.Carries keywords f calls (SameUnder (Select.renamed f)) := by
  have source : Rule.Carries keywords f calls (SameUnder (TableExpression.renamed f))
      (TableExpression.mk <$> Grammar.tableSource <*> Grammar.label) :=
    .last (h.tableSource.first (by simp [TableExpression.renamed])) label
  have clause {key : DdlRule String} (none : key.nameless = true) :
      Rule.Carries keywords f calls (SameUnder (Option.map (Expression.renamed f)))
        (key *> Grammar.expression).optional :=
    .optional (.seqRight (.of_nameless none) h.expression)
  have top : Rule.Carries keywords f calls (SameUnder (Option.map (Term.renamed f)))
      (literal "TOP" *> Grammar.term).optional :=
    .optional (.seqRight (.of_nameless rfl) h.term)
  refine .seqRight (.of_nameless rfl) (.nested (.last (.next (.next (.next (.next (.next (.next
    (top.first ?_) (.kept rfl)) h.projection) (.seqRight (.of_nameless rfl) source.commaList))
    (clause rfl)) (clause rfl)) (clause rfl)) (clause rfl)))
  simp [Select.renamed]

end Rules

theorem of_calls (keywords : Keywords) (f : String → String) (calls : Nat) :
    RecursionCarries keywords f calls := by
  induction calls with
  | zero => exact ⟨.unanswered, .unanswered, .unanswered, .unanswered⟩
  | succ calls ih =>
    exact ⟨.call ih.expressionRule, .call ih.conditionRule, .call ih.termRule, .call ih.selectRule⟩

end RecursionCarries

theorem carries_expression :
    expression.Carries keywords f calls (SameUnder (Expression.renamed f)) :=
  (RecursionCarries.of_calls keywords f calls).expression

end TableDdl
