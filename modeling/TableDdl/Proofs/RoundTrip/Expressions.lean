import TableDdl.Proofs.Expression.Heads
import TableDdl.Proofs.Layout.Parts
import TableDdl.Proofs.RoundTrip.ExpressionTokens

/-!
# Replaying expressions and queries

Each rule of the expression grammar writes its value as the layout does and replays on what is
written. The recursion is on the number of named rules inside each other.
-/
namespace TableDdl

open Writes

/-- The text of an expression; the names in it all have a written form. -/
def Expression.written (e : Expression) : Written := ⟨e.layout.lexemes, [], e.heads⟩

def Conjunction.written (c : Conjunction) : Written := ⟨c.layout.lexemes, [], c.heads⟩

def Condition.written (c : Condition) : Written := ⟨c.layout.lexemes, [], c.heads⟩

def Predicate.written (p : Predicate) : Written := ⟨p.layout.lexemes, [], p.heads⟩

def Comparand.written (c : Comparand) : Written := ⟨c.layout.lexemes, [], c.heads⟩

def Operand.written (o : Operand) : Written := ⟨o.layout.lexemes, [], o.heads⟩

def Summand.written (s : Summand) : Written := ⟨s.layout.lexemes, [], s.heads⟩

def Addend.written (a : Addend) : Written := ⟨a.layout.lexemes, [], a.heads⟩

def Factor.written (f : Factor) : Written := ⟨f.layout.lexemes, [], f.heads⟩

def Multiplier.written (m : Multiplier) : Written := ⟨m.layout.lexemes, [], m.heads⟩

def Term.written (t : Term) : Written := ⟨t.layout.lexemes, [], t.heads⟩

def Select.written (s : Select) : Written := ⟨s.layout.lexemes, [], s.heads⟩

def Projection.written (p : Projection) : Written := ⟨p.layout.lexemes, [], p.heads⟩

def AliasedExpression.written (a : AliasedExpression) : Written := ⟨a.layout.lexemes, [], a.heads⟩

def TableSource.written (s : TableSource) : Written := ⟨s.layout.lexemes, [], s.heads⟩

def TableExpression.written (t : TableExpression) : Written := ⟨t.layout.lexemes, [], t.heads⟩

namespace Replay

variable {calls : Nat}

section Lists

variable {ι β : Type} {r : DdlRule ι} {s : DdlRule β} {f g : Bool} {layout : ι → Layout}
  {heads : ι → List String}

/-- Phrases with a separator between any two of them. -/
theorem joined (separator : Layout)
    (h : Replay calls r f (Exactly fun x => ⟨(layout x).lexemes, [], heads x⟩))
    (h' : Replay calls s g fun _ t => t = .plain separator.lexemes)
    (some : r.nullable = false) :
    Replay calls (r.sepBy1 s) f (fun xs t => xs ≠ [] ∧
      t = ⟨(Layout.joined separator (xs.map layout)).lexemes, [], xs.flatMap heads⟩) := by
  apply (h.sepBy1 h' some).restate
  rintro xs _ ⟨some, us, all, rfl⟩
  refine ⟨some, ?_⟩
  obtain rfl := forall₂_exactly.1 all
  cases xs with
  | nil => exact absurd rfl some
  | cons x xs =>
    rw [Written.separated_map]
    apply Written.ext
    · rw [List.map_cons, Layout.lexemes_joined_cons, List.flatMap_map]
    · simp
    · rfl

theorem commaList (h : Replay calls r f (Exactly fun x => ⟨(layout x).lexemes, [], heads x⟩))
    (some : r.nullable = false) :
    Replay calls (Grammar.commaList r) f (fun xs t => xs ≠ [] ∧
      t = ⟨(Layout.commaSeparated (xs.map layout)).lexemes, [], xs.flatMap heads⟩) :=
  joined (Layout.symbol "," ++ Layout.space) h (symbol "," (by decide)) some

/-- Any number of phrases, with commas between them. -/
theorem commaList0 (h : Replay calls r true (Exactly fun x => ⟨(layout x).lexemes, [], heads x⟩))
    (some : r.nullable = false) :
    Replay calls (Grammar.commaList0 r) true
      (Exactly fun xs => ⟨(Layout.commaSeparated (xs.map layout)).lexemes, [], xs.flatMap heads⟩) := by
  apply ((h.commaList some).optional.map fun o : Option (List ι) => o.getD []).restate
  rintro _ t ⟨o, writes, rfl⟩
  cases o with
  | none => exact writes
  | some xs => exact writes.2

/-- Phrases one after the other. -/
theorem repeated (h : Replay calls r true (Exactly fun x => ⟨(layout x).lexemes, [], heads x⟩))
    (some : r.nullable = false) :
    Replay calls r.many true
      (Exactly fun xs => ⟨Layout.lexemes (xs.flatMap layout), [], xs.flatMap heads⟩) := by
  apply (h.many some).restate
  rintro xs _ ⟨us, all, rfl⟩
  obtain rfl := forall₂_exactly.1 all
  rw [Written.concat_map, Exactly, Layout.lexemes_flatMap]
  simp

end Lists

section Arithmetic

variable (term : Replay calls Grammar.term true (Exactly Term.written))

include term

theorem factor : Replay calls Grammar.factor true (Exactly Factor.written) := by
  have multiplier : Replay calls (Multiplier.mk <$> Grammar.spelled <*> Grammar.term) true
      (Exactly Multiplier.written) := by
    apply ((multiplyOp.map Multiplier.mk).seq term).restate
    rintro _ _ ⟨_, t, _, _, ⟨op, rfl, rfl⟩, rfl, rfl, rfl⟩
    apply Written.ext <;> simp [Multiplier.written, Multiplier.layout, Multiplier.heads, Term.written]
  apply ((term.map Factor.product).seq (multiplier.repeated rfl)).restate
  rintro _ _ ⟨_, rest, _, _, ⟨first, rfl, rfl⟩, rfl, rfl, rfl⟩
  apply Written.ext <;>
    simp [Factor.written, Factor.layout, Factor.heads, Term.written, Multiplier.layouts_eq,
      Multiplier.headsAll_eq]

theorem summand : Replay calls Grammar.summand true (Exactly Summand.written) := by
  have factor := factor term
  have addend : Replay calls (Addend.mk <$> Grammar.spelled <*> Grammar.factor) true
      (Exactly Addend.written) := by
    apply ((addOp.map Addend.mk).seq factor).restate
    rintro _ _ ⟨_, t, _, _, ⟨op, rfl, rfl⟩, rfl, rfl, rfl⟩
    apply Written.ext <;> simp [Addend.written, Addend.layout, Addend.heads, Factor.written]
  apply ((factor.map Summand.sum).seq (addend.repeated rfl)).restate
  rintro _ _ ⟨_, rest, _, _, ⟨first, rfl, rfl⟩, rfl, rfl, rfl⟩
  apply Written.ext <;>
    simp [Summand.written, Summand.layout, Summand.heads, Factor.written, Addend.layouts_eq,
      Addend.headsAll_eq]

theorem operand : Replay calls Grammar.operand true (Exactly Operand.written) := by
  apply (((summand term).joined (Layout.space ++ Layout.symbol "||" ++ Layout.space)
    (symbol "||" (by decide)) rfl).map Operand.concat).restate
  rintro _ _ ⟨parts, ⟨-, rfl⟩, rfl⟩
  simp [Exactly, Operand.written, Operand.layout, Operand.heads, Summand.layouts_eq,
    Summand.headsAll_eq]

end Arithmetic

section Predicates

variable (operand : Replay calls Grammar.operand true (Exactly Operand.written))
  (select : Replay calls Grammar.select true (Exactly Select.written))
  (expression : Replay calls Grammar.expression true (Exactly Expression.written))

include operand in
theorem isTest : Replay calls Grammar.isTest true fun test t => ∀ negated,
    (test negated).written = .plain (.word "IS" :: if negated then [.word "NOT"] else []) ++ t := by
  have distinct := ((word "DISTINCT" true (by decide)).phrase
    (word "FROM" true (by decide))).after operand
  apply (((word "NULL" true (by decide)).as Predicate.isNull).either
    (distinct.map fun other negated => Predicate.isDistinctFrom negated other)).restate
  rintro test t (⟨rfl, rfl⟩ | ⟨other, ⟨_, rfl, rfl⟩, rfl⟩) negated
  · cases negated <;>
      apply Written.ext <;> simp [Predicate.written, Predicate.layout, Predicate.heads, Layout.negation]
  · cases negated <;> apply Written.ext <;>
      simp [Predicate.written, Predicate.layout, Predicate.heads, Layout.negation, Operand.written]

include operand select in
theorem comparand : Replay calls Grammar.comparand true (Exactly Comparand.written) := by
  apply (((quantifier.map Comparand.quantified).seq select.parenthesized).either
    (operand.map Comparand.operand)).restate
  rintro _ _ (⟨_, query, _, _, ⟨q, rfl, rfl⟩, ⟨_, rfl, rfl⟩, rfl, rfl⟩ | ⟨o, rfl, rfl⟩)
  · apply Written.ext <;>
      simp [Comparand.written, Comparand.layout, Comparand.heads, Select.written, enclosed]
  · apply Written.ext <;> simp [Comparand.written, Comparand.layout, Comparand.heads, Operand.written]

include operand select expression in
theorem negatable (negated : Bool) : Replay calls (Grammar.negatable negated) true fun p t =>
    p.written = .plain (if negated then [.word "NOT"] else []) ++ t := by
  have between := (((word "BETWEEN" true (by decide)).after operand).map
    (Predicate.between negated)).seq ((word "AND" true (by decide)).after operand)
  have among := ((word "IN" true (by decide)).after (parenthesized
    ((select.map (Predicate.inSelect negated)).either
      ((expression.commaList rfl).map (Predicate.inList negated)))))
  have like := ((word "LIKE" true (by decide)).after operand).map (Predicate.like negated)
  apply (between.either (among.either like)).restate
  rintro _ _ (⟨_, high, _, _, ⟨low, ⟨_, rfl, rfl⟩, rfl⟩, ⟨_, rfl, rfl⟩, rfl, rfl⟩ |
    ⟨_, ⟨_, ⟨query, rfl, rfl⟩ | ⟨items, ⟨-, rfl⟩, rfl⟩, rfl⟩, rfl⟩ | ⟨o, ⟨_, rfl, rfl⟩, rfl⟩)
  · cases negated <;> apply Written.ext <;>
      simp [Predicate.written, Predicate.layout, Predicate.heads, Layout.negation, Operand.written]
  · cases negated <;> apply Written.ext <;>
      simp [Predicate.written, Predicate.layout, Predicate.heads, Layout.negation, Select.written,
        enclosed]
  · cases negated <;> apply Written.ext <;>
      simp [Predicate.written, Predicate.layout, Predicate.heads, Layout.negation, enclosed,
        Expression.layouts_eq, Expression.headsAll_eq]
  · cases negated <;> apply Written.ext <;>
      simp [Predicate.written, Predicate.layout, Predicate.heads, Layout.negation, Operand.written]

include operand select expression in
theorem predicate : Replay calls Grammar.predicate true (Exactly Predicate.written) := by
  have compare := (compareOp.map Predicate.compare).seq (comparand operand select)
  have test := (((word "IS" true (by decide)).after (word "NOT" true (by decide)).flag).map
    fun negated (test : Bool → Predicate) => test negated).seq (isTest operand)
  have negative := (word "NOT" true (by decide)).after (negatable operand select expression true)
  apply (compare.either (test.either (negative.either
    (negatable operand select expression false)))).restate
  rintro p _ (⟨_, right, _, _, ⟨op, rfl, rfl⟩, rfl, rfl, rfl⟩ |
    ⟨_, test, _, _, ⟨negated, ⟨_, rfl, rfl⟩, rfl⟩, text, rfl, rfl⟩ | ⟨t, text, rfl⟩ | text)
  · apply Written.ext <;>
      simp [Predicate.written, Predicate.layout, Predicate.heads, Comparand.written]
  · rw [Exactly, text negated]
    cases negated <;> rfl
  · rw [Exactly, text]
    rfl
  · rw [Exactly, text]
    rfl

end Predicates

section Terms

variable (select : Replay calls Grammar.select true (Exactly Select.written))
  (expression : Replay calls Grammar.expression true (Exactly Expression.written))

theorem path : Replay calls ((fun head rest => Grammar.referenceTerm (head :: rest)) <$>
    (Grammar.identifier <|> Grammar.timeFunctionName) <*>
      (Grammar.literal "." *> Grammar.identifier).many) true fun f t =>
    ∃ head rest, f = Grammar.referenceTerm (head :: rest) ∧
      t = ⟨(Layout.path (head :: rest)).lexemes, [], [head]⟩ := by
  have part : Replay calls (Grammar.literal "." *> Grammar.identifier) true
      (Exactly fun n => ⟨(Layout.symbol "." ++ Layout.name n).lexemes, [], []⟩) := by
    apply ((symbol "." (by decide)).after identifier).restate
    rintro n _ ⟨_, rfl, rfl⟩
    rfl
  apply ((head.map fun head rest => Grammar.referenceTerm (head :: rest)).seq
    (part.repeated rfl)).restate
  rintro _ _ ⟨_, rest, _, _, ⟨head, rfl, rfl⟩, rfl, rfl, rfl⟩
  refine ⟨head, rest, rfl, ?_⟩
  apply Written.ext <;> simp [headText, Layout.path]
  split <;> simp

theorem simpleTerm : Replay calls (.oneOf ((Grammar.literal "*").as Term.wildcard) [
    Term.number <$> Grammar.number, Term.string <$> Grammar.string,
    Term.boolean <$> Grammar.boolean, (Grammar.literal "NULL").as .null]) true
    (Exactly Term.written) := by
  apply (((symbol "*" (by decide)).as Term.wildcard).either ((number.map Term.number).either
    ((string.map Term.string).either ((boolean.map Term.boolean).either
      ((word "NULL" true (by decide)).as Term.null))))).restate
  rintro _ _ (⟨rfl, rfl⟩ | ⟨x, rfl, rfl⟩ | ⟨x, rfl, rfl⟩ | ⟨x, rfl, rfl⟩ | ⟨rfl, rfl⟩) <;>
    apply Written.ext <;> simp [Term.written, Term.layout, Term.heads]

include select expression in
theorem termRule : Replay calls Grammar.termRule true (Exactly Term.written) := by
  have reference := path.seq (expression.commaList0 rfl).parenthesized.optional
  have group := (expression.commaList rfl).parenthesized.map Grammar.parenthesizedTerm
  apply ((select.map Term.select).either (simpleTerm.either (reference.either group))).restate
  rintro _ _ (⟨query, rfl, rfl⟩ | rfl | ⟨_, arguments, _, _, ⟨head, rest, rfl, rfl⟩, text, rfl, rfl⟩ |
    ⟨items, ⟨_, ⟨some, rfl⟩, rfl⟩, rfl⟩)
  · apply Written.ext <;> simp [Term.written, Term.layout, Term.heads, Select.written]
  · rfl
  · cases arguments with
    | none =>
      obtain rfl := text
      apply Written.ext <;> simp [Term.written, Grammar.referenceTerm, Term.layout, Term.heads]
    | some items =>
      obtain ⟨_, rfl, rfl⟩ := text
      apply Written.ext <;> simp [Term.written, Grammar.referenceTerm, Term.layout, Term.heads,
        enclosed, Expression.layouts_eq, Expression.headsAll_eq]
  · rcases items with _ | ⟨first, _ | ⟨second, items⟩⟩
    · exact absurd rfl some
    · apply Written.ext <;> simp [Term.written, Grammar.parenthesizedTerm, Term.layout, Term.heads,
        enclosed, Layout.commaSeparated, Layout.joined]
    · apply Written.ext <;> simp [Term.written, Grammar.parenthesizedTerm, Term.layout, Term.heads,
        enclosed, Expression.layouts_eq, Expression.headsAll_eq]

end Terms

section Conditions

variable (select : Replay calls Grammar.select true (Exactly Select.written))
  (term : Replay calls Grammar.term true (Exactly Term.written))
  (expression : Replay calls Grammar.expression true (Exactly Expression.written))
  (condition : Replay calls (.call .condition) true (Exactly Condition.written))

include select term expression condition in
theorem conditionRule : Replay calls Grammar.conditionRule true (Exactly Condition.written) := by
  have operand := operand term
  have negation := ((word "NOT" true (by decide)).after condition.nested).map Condition.not
  have existence := ((word "EXISTS" true (by decide)).after select.parenthesized).map
    Condition.exists
  have test := (operand.map Condition.test).seq (predicate operand select expression).optional
  apply (negation.either (existence.either test)).restate
  rintro _ _ (⟨inner, ⟨_, rfl, rfl⟩, rfl⟩ | ⟨query, ⟨_, ⟨_, rfl, rfl⟩, rfl⟩, rfl⟩ |
    ⟨_, p, _, _, ⟨o, rfl, rfl⟩, text, rfl, rfl⟩)
  · apply Written.ext <;> simp [Condition.written, Condition.layout, Condition.heads]
  · apply Written.ext <;>
      simp [Condition.written, Condition.layout, Condition.heads, Select.written, enclosed]
  · cases p with
    | none =>
      obtain rfl := text
      apply Written.ext <;> simp [Condition.written, Condition.layout, Condition.heads,
        Operand.written, Predicate.layoutAfter, Predicate.headsIn]
    | some p =>
      obtain rfl := text
      apply Written.ext <;> simp [Condition.written, Condition.layout, Condition.heads,
        Operand.written, Predicate.layoutAfter, Predicate.headsIn, Predicate.written]

include condition in
theorem expressionRule : Replay calls Grammar.expressionRule true (Exactly Expression.written) := by
  have conjunction : Replay calls Grammar.conjunction true (Exactly Conjunction.written) := by
    apply ((condition.joined (Layout.space ++ Layout.word "AND" ++ Layout.space)
      (word "AND" true (by decide)) rfl).map Conjunction.allOf).restate
    rintro _ _ ⟨conditions, ⟨-, rfl⟩, rfl⟩
    simp [Exactly, Conjunction.written, Conjunction.layout, Conjunction.heads,
      Condition.layouts_eq, Condition.headsAll_eq]
  apply ((conjunction.joined (Layout.space ++ Layout.word "OR" ++ Layout.space)
    (word "OR" true (by decide)) rfl).map Expression.anyOf).nested.restate
  rintro _ _ ⟨disjuncts, ⟨-, rfl⟩, rfl⟩
  simp [Exactly, Expression.written, Expression.layout, Expression.heads,
    Conjunction.layouts_eq, Conjunction.headsAll_eq]

end Conditions

section Queries

variable (select : Replay calls Grammar.select true (Exactly Select.written))
  (term : Replay calls Grammar.term true (Exactly Term.written))
  (expression : Replay calls Grammar.expression true (Exactly Expression.written))

theorem label : Replay calls Grammar.label true
    (Exactly fun l => ⟨(Layout.labelClause l).lexemes, [], []⟩) := by
  apply ((word "AS" true (by decide)).after identifier).optional.restate
  rintro l t text
  cases l with
  | none => exact text
  | some n =>
    obtain ⟨_, rfl, rfl⟩ := text
    rfl

include expression in
theorem projection : Replay calls Grammar.projection true (Exactly Projection.written) := by
  have item : Replay calls (AliasedExpression.mk <$> Grammar.expression <*> Grammar.label) true
      (Exactly AliasedExpression.written) := by
    apply ((expression.map AliasedExpression.mk).seq label).restate
    rintro _ _ ⟨_, l, _, _, ⟨e, rfl, rfl⟩, rfl, rfl, rfl⟩
    apply Written.ext <;> simp [AliasedExpression.written, AliasedExpression.layout,
      AliasedExpression.heads, Expression.written]
  apply (((symbol "*" (by decide)).as Projection.all).either
    ((item.commaList rfl).map Projection.items)).restate
  rintro _ _ (⟨rfl, rfl⟩ | ⟨items, ⟨-, rfl⟩, rfl⟩)
  · apply Written.ext <;> simp [Projection.written, Projection.layout, Projection.heads]
  · simp [Exactly, Projection.written, Projection.layout, Projection.heads,
      AliasedExpression.layouts_eq, AliasedExpression.headsAll_eq]

include select expression in
theorem tableSource : Replay calls Grammar.tableSource false (Exactly TableSource.written) := by
  have values := ((word "VALUES" true (by decide)).after
    (expression.commaList rfl).parenthesized).map TableSource.values
  have path : Replay calls (Grammar.identifier.sepBy1 (Grammar.literal ".")) false (fun path t =>
      path ≠ [] ∧ t = ⟨(Layout.joined (Layout.symbol ".") (path.map Layout.name)).lexemes, [],
        path.flatMap fun _ => []⟩) := joined (Layout.symbol ".") identifier
      (symbol "." (by decide)) rfl
  apply (values.either ((select.parenthesized.map TableSource.subquery).either
    (path.map TableSource.table))).restate
  rintro _ _ (⟨items, ⟨_, ⟨_, ⟨-, rfl⟩, rfl⟩, rfl⟩, rfl⟩ | ⟨query, ⟨_, rfl, rfl⟩, rfl⟩ |
    ⟨path, ⟨-, rfl⟩, rfl⟩)
  · apply Written.ext <;> simp [TableSource.written, TableSource.layout, TableSource.heads,
      enclosed, Expression.layouts_eq, Expression.headsAll_eq]
  · apply Written.ext <;> simp [TableSource.written, TableSource.layout, TableSource.heads,
      enclosed, Select.written]
  · apply Written.ext <;> simp [TableSource.written, TableSource.layout, TableSource.heads]

include select expression in
theorem source : Replay calls (TableExpression.mk <$> Grammar.tableSource <*> Grammar.label) false
    (Exactly TableExpression.written) := by
  apply (((tableSource select expression).map TableExpression.mk).seq label).restate
  rintro _ _ ⟨_, l, _, _, ⟨s, rfl, rfl⟩, rfl, rfl, rfl⟩
  apply Written.ext <;> simp [TableExpression.written, TableExpression.layout,
    TableExpression.heads, TableSource.written]

include expression in
/-- A clause of a query. -/
theorem clause (keywords : List String) {keyword : DdlRule String} {firm : Bool}
    (words : Replay calls keyword firm fun _ t => t = .plain (keywords.map .word)) :
    Replay calls (keyword *> Grammar.expression).optional true
      (Exactly fun e => ⟨(Expression.clause keywords e).lexemes, [], Expression.headsIn e⟩) := by
  have strong : ((firm || !Grammar.expression.nullable) && (true || !keyword.nullable)) = true := by
    simp [Grammar.expression, Rule.nullable]
  apply (strong ▸ words.after expression).optional.restate
  rintro e t text
  cases e with
  | none =>
    obtain rfl := text
    apply Written.ext <;> simp [Expression.clause, Expression.headsIn]
  | some e =>
    obtain ⟨_, rfl, rfl⟩ := text
    apply Written.ext <;> simp [Expression.clause, Expression.headsIn, Expression.written]

include select term expression in
theorem selectBody : Replay calls Grammar.selectBody.nested true fun s t =>
    s.written = .plain [.word "SELECT"] ++ t := by
  have top : Replay calls (Grammar.literal "TOP" *> Grammar.term).optional true
      (Exactly fun t => ⟨(Term.layoutTop t).lexemes, [], Term.headsIn t⟩) := by
    apply ((word "TOP" false (by decide)).after term).optional.restate
    rintro t text writes
    cases t with
    | none =>
      obtain rfl := writes
      apply Written.ext <;> simp [Term.layoutTop, Term.headsIn]
    | some t =>
      obtain ⟨_, rfl, rfl⟩ := writes
      apply Written.ext <;> simp [Term.layoutTop, Term.headsIn, Term.written]
  have quantifier : Replay calls (Rule.optional (Grammar.spelled (α := SelectQuantifier))) true
      (Exactly fun q => .plain (Layout.given q Layout.spelled).lexemes) := by
    apply selectQuantifier.optional.restate
    rintro q text writes
    cases q with
    | none => exact writes
    | some q =>
      obtain rfl := writes
      cases q <;> rfl
  have sources := ((word "FROM" true (by decide)).after ((source select expression).commaList rfl))
  have filter := clause expression ["WHERE"] (word "WHERE" true (by decide))
  have limit := clause expression ["LIMIT"] (word "LIMIT" true (by decide))
  have offset := clause expression ["OFFSET"] (word "OFFSET" false (by decide))
  have grouping := clause expression ["GROUP", "BY"]
    ((word "GROUP" true (by decide)).phrase (word "BY" true (by decide)))
  apply ((((((((top.map Select.mk).seq quantifier).seq (projection expression)).seq sources).seq
    filter).seq limit).seq offset).seq grouping).nested.restate
  rintro _ _ ⟨_, grouping, _, _, ⟨_, offset, _, _, ⟨_, limit, _, _, ⟨_, filter, _, _,
    ⟨_, sources, _, _, ⟨_, projection, _, _, ⟨_, quantifier, _, _, ⟨top, rfl, rfl⟩, rfl, rfl, rfl⟩,
      rfl, rfl, rfl⟩, ⟨_, ⟨-, rfl⟩, rfl⟩, rfl, rfl⟩, rfl, rfl, rfl⟩, rfl, rfl, rfl⟩, rfl, rfl, rfl⟩,
      rfl, rfl, rfl⟩
  apply Written.ext <;> simp [Select.written, Select.layout, Select.heads, Projection.written,
    TableExpression.layouts_eq, TableExpression.headsAll_eq]

include select term expression in
theorem selectRule : Replay calls Grammar.selectRule true (Exactly Select.written) := by
  apply ((word "SELECT" true (by decide)).after (selectBody select term expression)).restate
  rintro s _ ⟨_, text, rfl⟩
  exact text.symm

end Queries

/-- All named rules are replayed, with any number of them inside each other. -/
theorem named (calls : Nat) :
    Replay calls Grammar.expression true (Exactly Expression.written) ∧
      Replay calls (.call .condition) true (Exactly Condition.written) ∧
      Replay calls Grammar.term true (Exactly Term.written) ∧
      Replay calls Grammar.select true (Exactly Select.written) := by
  induction calls with
  | zero => exact ⟨.call_zero _, .call_zero _, .call_zero _, .call_zero _⟩
  | succ calls ih =>
    obtain ⟨expression, condition, term, select⟩ := ih
    refine ⟨.call ?_, .call ?_, .call ?_, .call ?_⟩
    · exact expressionRule condition
    · exact conditionRule select term expression condition
    · exact termRule select expression
    · exact selectRule select term expression

theorem expression (calls : Nat) : Replay calls Grammar.expression true
    (Exactly Expression.written) := (named calls).1

end Replay
end TableDdl
