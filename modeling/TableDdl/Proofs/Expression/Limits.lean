import TableDdl.Proofs.Expression.Outline

/-!
# Expressions under two limits

The outline of a tree says with which limits of nesting it is read. Main statement: what the
recursive rules read with one limit is read alike with each limit that the outline of the tree fits.
-/
namespace TableDdl

open Grammar Outline

variable {α : Type} {calls : Nat}

/-- With so many calls, the recursive rules are read alike with the limits that the outline of the
tree fits. -/
structure RecursionNests (calls : Nat) : Prop where
  expression : expression.Nests calls fun e o => e.outline = o
  condition : Rule.Nests calls (fun c o => c.outline = o) (.call .condition)
  term : term.Nests calls fun t o => t.outline = o
  select : select.Nests calls fun q o => q.outline = o

namespace RecursionNests

theorem plain {r : DdlRule α} (only : r.opensOnly [] = true) :
    r.Nests calls fun _ o => o = Outline.plain :=
  .of_opensOnly [] only

section Rules

variable (h : RecursionNests calls)

include h

theorem factor : factor.Nests calls fun x o => x.outline = o := by
  have multiplier : Rule.Nests calls (fun m o => m.outline = o)
      (Multiplier.mk <$> spelled <*> Grammar.term) :=
    .seq (.map (S := fun f o => ∀ t : Term, (f t).outline = o ++ t.outline)
      (plain (by decide)) fun _ _ same _ => by rw [same]; rfl) h.term
      fun _ _ _ _ parts same => by rw [parts, same]
  refine .seq (.map (S := fun f o => ∀ ms, (f ms).outline = o ++ sequence (Multiplier.outlines ms))
    h.term fun _ _ same _ => by rw [← same]; rfl)
    (multiplier.many (by decide) (by decide) (by decide)) ?_
  rintro f o ms _ parts ⟨os, same, rfl⟩
  rw [parts, Multiplier.outlines_eq_map, map_of_forall₂ same]

theorem summand : summand.Nests calls fun x o => x.outline = o := by
  have addend : Rule.Nests calls (fun a o => a.outline = o)
      (Addend.mk <$> spelled <*> Grammar.factor) :=
    .seq (.map (S := fun f o => ∀ x : Factor, (f x).outline = o ++ x.outline)
      (plain (by decide)) fun _ _ same _ => by rw [same]; rfl) h.factor
      fun _ _ _ _ parts same => by rw [parts, same]
  refine .seq (.map (S := fun f o => ∀ as, (f as).outline = o ++ sequence (Addend.outlines as))
    h.factor fun _ _ same _ => by rw [← same]; rfl)
    (addend.many (by decide) (by decide) (by decide)) ?_
  rintro f o as _ parts ⟨os, same, rfl⟩
  rw [parts, Addend.outlines_eq_map, map_of_forall₂ same]

theorem operand : operand.Nests calls fun x o => x.outline = o := by
  refine .map (h.summand.sepBy1 0 (plain (by decide)) (fun _ _ _ => Nat.zero_le _)
    (Nat.zero_le 2) (by decide) (by decide) (by decide)) ?_
  rintro parts _ ⟨os, same, rfl⟩
  rw [Operand.outline, Summand.outlines_eq_map, map_of_forall₂ same]

/-- A query in parentheses after a word. -/
theorem query : (parenthesized Grammar.select).Nests calls fun q o => q.outline.enclosed = o :=
  h.select.parenthesized.mono fun _ _ ⟨_, same, whole⟩ => by rw [same, whole]

/-- The operand after a word. -/
theorem operandAfter {r : DdlRule String} (only : r.opensOnly [] = true) :
    (r *> Grammar.operand).Nests calls fun x o => Outline.plain ++ x.outline = o :=
  .seqRight (plain only) h.operand fun _ _ _ _ first same => by rw [first, same]

theorem list : (commaList Grammar.expression).Nests calls fun es o =>
    joined (Expression.outlines es) = o := by
  refine (h.expression.sepBy1 1 (plain (by decide)) ?_ (Nat.le_succ 1)
    (by decide) (by decide) (by decide)).mono ?_
  · rintro ⟨disjuncts⟩ _ rfl
    exact Nat.le_add_left 1 _
  · rintro es _ ⟨os, same, rfl⟩
    rw [Expression.outlines_eq_map, map_of_forall₂ same]

theorem comparand : comparand.Nests calls fun x o => x.outline = o := by
  have quantified : Rule.Nests calls (fun x o => x.outline = o)
      (Comparand.quantified <$> spelled <*> parenthesized Grammar.select) :=
    .seq (.map (S := fun f o => ∀ q : Select, (f q).outline = o ++ q.outline.enclosed)
      (plain (by decide)) fun _ _ same _ => by rw [same]; rfl) h.query
      fun _ _ _ _ parts same => by rw [parts, same]
  exact quantified.orElse (h.operand.map fun _ _ same => same) (by decide)
    (by decide)

theorem isTest : isTest.Nests calls fun test o => ∀ b, (test b).outline = Outline.plain ++ o := by
  have null : Rule.Nests calls
      (fun (test : Bool → Predicate) o => ∀ b, (test b).outline = Outline.plain ++ o)
      ((Grammar.literal "NULL").as Predicate.isNull) :=
    .map (plain (r := Grammar.literal "NULL") (by decide)) fun _ _ same _ => by
      rw [same]; rfl
  have distinct : Rule.Nests calls
      (fun (test : Bool → Predicate) o => ∀ b, (test b).outline = Outline.plain ++ o)
      ((fun other negated => Predicate.isDistinctFrom negated other)
        <$> (Grammar.literal "DISTINCT" *> Grammar.literal "FROM" *> Grammar.operand)) :=
    .map (h.operandAfter (by decide)) fun _ _ same _ => by
      rw [← same]; exact (opening_plain [] _).symm
  exact null.orElse distinct (by decide) (by decide)

theorem negatable (negated : Bool) : (negatable negated).Nests calls fun p o => p.outline = o := by
  have between : Rule.Nests calls (fun p o => p.outline = o)
      (Predicate.between negated <$> (Grammar.literal "BETWEEN" *> Grammar.operand)
        <*> (Grammar.literal "AND" *> Grammar.operand)) :=
    .seq (.map (S := fun f o => ∀ high : Operand,
        (f high).outline = o ++ (Outline.plain ++ high.outline))
      (h.operandAfter (by decide)) fun _ _ same _ => by rw [← same]; rfl)
      (h.operandAfter (by decide)) fun _ _ _ _ parts same => by rw [parts, same]
  have query : Rule.Nests calls (fun p o => p.outline = Outline.plain ++ o.enclosed)
      (Predicate.inSelect negated <$> Grammar.select) :=
    h.select.map fun _ _ same => by rw [← same]; rfl
  have items : Rule.Nests calls (fun p o => p.outline = Outline.plain ++ o.enclosed ∧ o.Deep 2)
      (Predicate.inList negated <$> commaList Grammar.expression) :=
    h.list.map fun es _ same => by rw [← same]; exact ⟨rfl, Expression.deep_joined es⟩
  have members : Rule.Nests calls (fun p o => p.outline = Outline.plain ++ o.enclosed)
      (Predicate.inSelect negated <$> Grammar.select
        <|> Predicate.inList negated <$> commaList Grammar.expression) := by
    cases negated <;> exact query.orElse_of_levels 2 items (by decide) (by decide)
      (by decide) (by decide) (by decide) (by decide)
      (Nat.le_refl 2) (by decide)
  have inside : Rule.Nests calls (fun p o => p.outline = o)
      (Grammar.literal "IN" *> parenthesized (Predicate.inSelect negated <$> Grammar.select
        <|> Predicate.inList negated <$> commaList Grammar.expression)) :=
    .seqRight (plain (by decide)) members.parenthesized
      fun _ _ _ _ first ⟨_, same, whole⟩ => by rw [first, same, whole]
  have like : Rule.Nests calls (fun p o => p.outline = o)
      (Predicate.like negated <$> (Grammar.literal "LIKE" *> Grammar.operand)) :=
    (h.operandAfter (by decide)).map fun _ _ same => by rw [← same]; rfl
  cases negated <;> exact between.orElse (inside.orElse like (by decide)
    (by decide)) (by decide) (by decide)

theorem predicate : predicate.Nests calls fun p o => p.outline = o := by
  have compare : Rule.Nests calls (fun p o => p.outline = o)
      (Predicate.compare <$> compareOp <*> Grammar.comparand) :=
    .seq (.map (S := fun f o => ∀ right : Comparand, (f right).outline = o ++ right.outline)
      (plain (by decide)) fun _ _ same _ => by rw [same]; rfl) h.comparand
      fun _ _ _ _ parts same => by rw [parts, same]
  have is : Rule.Nests calls (fun p o => p.outline = o)
      ((fun negated test => test negated) <$> (Grammar.literal "IS" *> (Grammar.literal "NOT").flag)
        <*> Grammar.isTest) :=
    .seq (.map (S := fun f o => o = Outline.plain ∧ ∃ b, f = fun test => test b)
      (plain (by decide)) fun b _ same => ⟨same, b, rfl⟩) h.isTest
      fun _ _ _ _ first test => by
        obtain ⟨rfl, b, rfl⟩ := first
        exact test b
  have not : Rule.Nests calls (fun p o => p.outline = o)
      (Grammar.literal "NOT" *> Grammar.negatable true) :=
    .seqRight (plain (by decide)) (h.negatable true) fun _ _ p _ first same => by
      rw [first, ← same, p.plain_outline]
  exact compare.orElse (is.orElse (not.orElse (h.negatable false) (by decide)
    (by decide)) (by decide) (by decide)) (by decide)
    (by decide)

theorem reference : Rule.Nests calls (fun t o => t.outline = o)
    ((fun head rest => referenceTerm (head :: rest)) <$> (identifier <|> timeFunctionName)
      <*> (Grammar.literal "." *> identifier).many
      <*> (parenthesized (commaList0 Grammar.expression)).optional) := by
  have head : Rule.Nests calls (fun (_ : String) o => o = opening ["OFFSET"])
      (identifier <|> timeFunctionName) :=
    .of_opensOnly ["OFFSET"] (by decide)
  have dotted : (Grammar.literal "." *> identifier : DdlRule String).Nests calls
      fun _ o => o = Outline.plain :=
    plain (by decide)
  have rest : Rule.Nests calls
      (fun (_ : List String) o => opening ["OFFSET"] ++ o = opening ["OFFSET"])
      (Grammar.literal "." *> identifier).many :=
    (dotted.many (by decide) (by decide) (by decide)).mono fun _ _ ⟨_, each, whole⟩ =>
      whole ▸ opening_sequence each
  have arguments := (h.list.parenthesized_commaList0 rfl (by decide) (by decide) (by decide)
    (by decide)).optional_of_leads "(" (by decide) (by decide) (by decide) (by decide) (by decide)
      fun word => absurd rfl word
  refine .seq (.seq (.map (S := fun f o => o = opening ["OFFSET"] ∧ ∃ head,
    f = fun rest => referenceTerm (head :: rest)) head fun x _ same => ⟨same, x, rfl⟩) rest
    (Q := fun f o => o = opening ["OFFSET"] ∧ ∃ path, f = referenceTerm path) ?_) arguments ?_
  · rintro _ _ names _ ⟨rfl, head, rfl⟩ same
    exact ⟨same, _, rfl⟩
  · rintro _ _ v _ ⟨rfl, path, rfl⟩ (⟨rfl, rfl⟩ | ⟨es, rfl, _, rfl, rfl⟩)
    · rfl
    · rfl

theorem termRule : termRule.Nests calls fun t o => t.outline = o := by
  have constants : Rule.Nests calls (fun t o => t.outline = o)
      (.oneOf ((Grammar.literal "*").as .wildcard) [Term.number <$> number, Term.string <$> string,
        Term.boolean <$> boolean, (Grammar.literal "NULL").as .null]) := by
    have constant {β : Type} {r : DdlRule β} {f : β → Term} (only : r.opensOnly [] = true)
        (same : ∀ x, (f x).outline = Outline.plain) :
        Rule.Nests calls (fun t o => t.outline = o) (f <$> r) :=
      .map (plain only) fun x _ whole => by rw [whole, same]
    change Rule.Nests calls _ ((Grammar.literal "*").as Term.wildcard <|> Term.number <$> number
      <|> Term.string <$> string <|> Term.boolean <$> boolean <|> (Grammar.literal "NULL").as .null)
    exact .orElse (constant (by decide) fun _ => rfl)
      (.orElse (constant (by decide) fun _ => rfl)
        (.orElse (constant (by decide) fun _ => rfl)
          (.orElse (constant (by decide) fun _ => rfl)
            (constant (by decide) fun _ => rfl)
            (by decide) (by decide)) (by decide) (by decide))
          (by decide) (by decide)) (by decide) (by decide)
  have grouped : Rule.Nests calls (fun t o => t.outline = o)
      (parenthesizedTerm <$> parenthesized (commaList Grammar.expression)) := by
    refine h.list.parenthesized.map ?_
    rintro es _ ⟨_, rfl, rfl⟩
    match es with
    | [] => rfl
    | [e] => exact congrArg enclosed (append_nothing e.outline).symm
    | _ :: _ :: _ => rfl
  exact .orElse_of_apart (h.select.map fun _ _ same => same)
    (constants.orElse (h.reference.orElse_of_apart grouped (by decide) (by decide))
      (by decide) (by decide)) (by decide) (by decide)

end Rules

theorem conditionRule (h : RecursionNests calls) :
    conditionRule.Nests calls fun c o => c.outline = o := by
  have not : Rule.Nests calls (fun c o => c.outline = o)
      (Condition.not <$> (literal "NOT" *> (Rule.call .condition).nested)) := by
    refine .map (.seqRight (plain (by decide)) h.condition.nested
      (Q := fun c o => Outline.plain ++ c.outline.deeper = o) ?_) fun _ _ same => same
    rintro _ _ _ _ rfl ⟨_, rfl, rfl⟩
    rfl
  have exist : Rule.Nests calls (fun c o => c.outline = o)
      (Condition.exists <$> (literal "EXISTS" *> parenthesized Grammar.select)) :=
    .map (.seqRight (plain (by decide)) h.query
      (Q := fun q o => Outline.plain ++ q.outline.enclosed = o)
      fun _ _ _ _ first same => by rw [first, same]) fun _ _ same => same
  have test : Rule.Nests calls (fun c o => c.outline = o)
      (Condition.test <$> Grammar.operand <*> Grammar.predicate.optional) := by
    refine .seq (.map (S := fun f o => ∀ p, (f p).outline = o ++ Predicate.outlineIn p) h.operand
      fun _ _ same _ => by rw [← same]; rfl)
      (h.predicate.optional_of_room (by decide) (by decide)) ?_
    rintro _ _ _ _ parts (⟨rfl, rfl⟩ | ⟨p, rfl, rfl⟩) <;> exact parts _
  exact not.orElse_of_apart (exist.orElse test (by decide) (by decide))
    (by decide) (by decide)

theorem conjunction (h : RecursionNests calls) :
    conjunction.Nests calls fun c o => c.outline = o := by
  refine .map (h.condition.sepBy1 0 (plain (by decide)) (fun _ _ _ => Nat.zero_le _)
    (Nat.zero_le 2) (by decide) (by decide) (by decide)) ?_
  rintro conditions _ ⟨os, same, rfl⟩
  rw [Conjunction.outline, Condition.outlines_eq_map, map_of_forall₂ same]

theorem expressionRule (h : RecursionNests calls) :
    expressionRule.Nests calls fun e o => e.outline = o := by
  refine .mono (.nested (.map (h.conjunction.sepBy1 0 (plain (by decide))
    (fun _ _ _ => Nat.zero_le _) (Nat.zero_le 2) (by decide) (by decide)
    (by decide)) (S := fun e o => e.outline = o.deeper) ?_)) ?_
  · rintro disjuncts _ ⟨os, same, rfl⟩
    rw [Expression.outline, Conjunction.outlines_eq_map, map_of_forall₂ same]
  · rintro e _ ⟨_, same, rfl⟩
    exact same

theorem optional_plain {r : DdlRule α} (only : r.opensOnly [] = true) (sheds : r.sheds 1 = true)
    (room : 2 ≤ r.room 0) : r.optional.Nests calls fun v o => given v = o := by
  refine ((plain only).optional_of_room sheds room).mono ?_
  rintro _ _ (⟨rfl, rfl⟩ | ⟨_, rfl, rfl⟩) <;> rfl

theorem label : label.Nests calls fun l o => given l = o :=
  optional_plain (by decide) (by decide) (by decide)

section Rules

variable (h : RecursionNests calls)

include h

theorem projection : projection.Nests calls fun p o => p.outline = o := by
  have item : Rule.Nests calls (fun a o => a.outline = o)
      (AliasedExpression.mk <$> Grammar.expression <*> Grammar.label) :=
    .seq (.map (S := fun f o => ∀ l, (f l).outline = o ++ given l) h.expression
      fun _ _ same _ => by rw [← same]; rfl) label fun _ _ _ _ parts same => by rw [parts, same]
  have all : Rule.Nests calls (fun p o => p.outline = o)
      ((Grammar.literal "*").as Projection.all) :=
    .map (plain (r := Grammar.literal "*") (by decide)) fun _ _ same => by rw [same]; rfl
  have items : Rule.Nests calls (fun p o => p.outline = o)
      (Projection.items <$> commaList (AliasedExpression.mk <$> Grammar.expression
        <*> Grammar.label)) := by
    refine .map (item.sepBy1 1 (plain (by decide)) ?_ (Nat.le_succ 1) (by decide)
      (by decide) (by decide)) ?_
    · rintro ⟨⟨disjuncts⟩, _⟩ _ rfl
      exact Nat.le_trans (Nat.le_add_left 1 _) (Nat.le_max_left _ _)
    · rintro items _ ⟨os, same, rfl⟩
      rw [Projection.outline, AliasedExpression.outlines_eq_map, map_of_forall₂ same]
  exact all.orElse items (by decide) (by decide)

theorem tableSource : tableSource.Nests calls fun s o => s.outline = o := by
  have values : Rule.Nests calls (fun s o => s.outline = o)
      (TableSource.values <$> (Grammar.literal "VALUES"
        *> parenthesized (commaList Grammar.expression))) := by
    refine .map (.seqRight (plain (by decide)) h.list.parenthesized
      (Q := fun es o => Outline.plain ++ (joined (Expression.outlines es)).enclosed = o) ?_)
      fun _ _ same => same
    rintro _ _ _ _ rfl ⟨_, rfl, rfl⟩
    rfl
  have path : Rule.Nests calls (fun s o => s.outline = o)
      (TableSource.table <$> identifier.sepBy1 (Grammar.literal ".")) :=
    .map (.of_opensOnly ["OFFSET"] (by decide)) fun _ _ same => by
      rw [same]; rfl
  exact values.orElse (.orElse (h.query.map fun _ _ same => same) path (by decide)
    (by decide)) (by decide) (by decide)

/-- A clause that begins with one word, which may be missing. -/
theorem clause (text : String) (known : text ∈ words)
    (only : Rule.opensOnly [text] (Grammar.literal text : DdlRule String) = true) :
    (Grammar.literal text *> Grammar.expression).optional.Nests calls
      fun e o => Expression.clauseOutline text e = o := by
  have present : Rule.Nests calls (fun e o => opening [text] ++ e.outline = o)
      (Grammar.literal text *> Grammar.expression) :=
    .seqRight (.of_opensOnly [text] only) h.expression fun _ _ _ _ first same => by
      rw [first, same]
  refine (present.optional_of_leads text known rfl rfl rfl (Nat.le_add_left 1 1)
    fun _ => Nat.le_refl 2).mono ?_
  rintro _ _ (⟨rfl, rfl⟩ | ⟨e, rfl, rfl⟩) <;> rfl

theorem top : (Grammar.literal "TOP" *> Grammar.term).optional.Nests calls
    fun t o => Term.topOutline t = o := by
  have present : Rule.Nests calls (fun t o => Outline.plain ++ t.outline = o)
      (Grammar.literal "TOP" *> Grammar.term) :=
    .seqRight (plain (by decide)) h.term fun _ _ _ _ first same => by rw [first, same]
  refine (present.optional_of_room (by decide) (by decide)).mono ?_
  rintro _ _ (⟨rfl, rfl⟩ | ⟨t, rfl, rfl⟩) <;> rfl

theorem sources : Rule.Nests calls
    (fun ts o => Outline.plain ++ joined (TableExpression.outlines ts) = o)
    (Grammar.literal "FROM" *> commaList (TableExpression.mk <$> Grammar.tableSource
      <*> Grammar.label)) := by
  have source : Rule.Nests calls (fun t o => t.outline = o)
      (TableExpression.mk <$> Grammar.tableSource <*> Grammar.label) :=
    .seq (.map (S := fun f o => ∀ l, (f l).outline = o ++ given l) h.tableSource
      fun _ _ same _ => by rw [← same]; rfl) label fun _ _ _ _ parts same => by rw [parts, same]
  refine .seqRight (plain (by decide)) (source.sepBy1 0 (plain (by decide))
    (fun _ _ _ => Nat.zero_le _) (Nat.zero_le 2) (by decide) (by decide)
    (by decide)) ?_
  rintro _ _ ts _ rfl ⟨os, same, rfl⟩
  rw [TableExpression.outlines_eq_map, map_of_forall₂ same]

theorem grouping :
    (Grammar.literal "GROUP" *> Grammar.literal "BY" *> Grammar.expression).optional.Nests calls
      fun e o => Expression.groupingOutline e = o := by
  have present : Rule.Nests calls (fun e o => Outline.plain ++ e.outline = o)
      (Grammar.literal "GROUP" *> Grammar.literal "BY" *> Grammar.expression) :=
    .seqRight (plain (by decide)) h.expression fun _ _ _ _ first same => by
      rw [first, same]
  refine (present.optional_of_room (by decide) (by decide)).mono ?_
  rintro _ _ (⟨rfl, rfl⟩ | ⟨e, rfl, rfl⟩) <;> rfl

theorem selectRule : selectRule.Nests calls fun q o => q.outline = o := by
  have quantifier : Rule.Nests calls (fun q o => given q = o)
      (spelled : DdlRule SelectQuantifier).optional :=
    optional_plain (by decide) (by decide) (by decide)
  have body : selectBody.Nests calls fun q o => q.outline = opening ["SELECT"] ++ o.deeper := by
    -- Clause by clause: what is read so far is a query that lacks its last clauses, with the outline
    -- of the others.
    refine .seq (.seq (.seq (.seq (.seq (.seq (.seq
      (.map (S := fun f o => ∃ a, f = Select.mk a ∧ Term.topOutline a = o) h.top ?_)
      quantifier (Q := fun f o => ∃ a b, f = Select.mk a b ∧
        Term.topOutline a ++ given b = o) ?_)
      h.projection (Q := fun f o => ∃ a b c, f = Select.mk a b c ∧
        Term.topOutline a ++ given b ++ c.outline = o) ?_)
      h.sources (Q := fun f o => ∃ a b c d, f = Select.mk a b c d ∧
        Term.topOutline a ++ given b ++ c.outline
          ++ (Outline.plain ++ joined (TableExpression.outlines d)) = o) ?_)
      (h.clause "WHERE" (by decide) (by decide))
      (Q := fun f o => ∃ a b c d e, f = Select.mk a b c d e ∧
        Term.topOutline a ++ given b ++ c.outline
          ++ (Outline.plain ++ joined (TableExpression.outlines d))
          ++ Expression.clauseOutline "WHERE" e = o) ?_)
      (h.clause "LIMIT" (by decide) (by decide))
      (Q := fun f o => ∃ a b c d e e', f = Select.mk a b c d e e' ∧
        Term.topOutline a ++ given b ++ c.outline
          ++ (Outline.plain ++ joined (TableExpression.outlines d))
          ++ Expression.clauseOutline "WHERE" e ++ Expression.clauseOutline "LIMIT" e' = o) ?_)
      (h.clause "OFFSET" (by decide) (by decide))
      (Q := fun f o => ∃ a b c d e e' e'', f = Select.mk a b c d e e' e'' ∧
        Term.topOutline a ++ given b ++ c.outline
          ++ (Outline.plain ++ joined (TableExpression.outlines d))
          ++ Expression.clauseOutline "WHERE" e ++ Expression.clauseOutline "LIMIT" e'
          ++ Expression.clauseOutline "OFFSET" e'' = o) ?_)
      h.grouping ?_
    · exact fun a _ same => ⟨a, rfl, same⟩
    · rintro _ _ b _ ⟨a, rfl, rfl⟩ rfl
      exact ⟨a, b, rfl, rfl⟩
    · rintro _ _ c _ ⟨a, b, rfl, rfl⟩ rfl
      exact ⟨a, b, c, rfl, rfl⟩
    · rintro _ _ d _ ⟨a, b, c, rfl, rfl⟩ rfl
      exact ⟨a, b, c, d, rfl, rfl⟩
    · rintro _ _ e _ ⟨a, b, c, d, rfl, rfl⟩ rfl
      exact ⟨a, b, c, d, e, rfl, rfl⟩
    · rintro _ _ e' _ ⟨a, b, c, d, e, rfl, rfl⟩ rfl
      exact ⟨a, b, c, d, e, e', rfl, rfl⟩
    · rintro _ _ e'' _ ⟨a, b, c, d, e, e', rfl, rfl⟩ rfl
      exact ⟨a, b, c, d, e, e', e'', rfl, rfl⟩
    · rintro _ _ g _ ⟨a, b, c, d, e, e', e'', rfl, rfl⟩ rfl
      rfl
  refine .seqRight (.of_opensOnly ["SELECT"] (by decide)) body.nested ?_
  rintro _ _ q _ rfl ⟨_, same, rfl⟩
  exact same

end Rules

theorem of_calls (calls : Nat) : RecursionNests calls := by
  induction calls with
  | zero => exact ⟨.unanswered, .unanswered, .unanswered, .unanswered⟩
  | succ calls ih =>
    exact ⟨.call ih.expressionRule, .call ih.conditionRule, .call ih.termRule, .call ih.selectRule⟩

end RecursionNests
end TableDdl
