import TableDdl.Expression.Basic
import TableDdl.Proofs.Grammar.Outline

/-!
# Outlines of expressions

How deep an expression is nested, and where its text leaves open to which part a word belongs. A
query in no parentheses could go on with a clause that it lacks, and a name could go on with
arguments. A tree is settled where no part is followed by a word that it could go on with.
-/
namespace TableDdl

open Outline

mutual

def Expression.outline : Expression → Outline
  | .anyOf disjuncts => (joined (Conjunction.outlines disjuncts)).deeper

def Expression.outlines : List Expression → List Outline
  | [] => []
  | e :: es => e.outline :: Expression.outlines es

/-- The clause that begins with the word, or the place of it. -/
def Expression.clauseOutline (text : String) : Option Expression → Outline
  | none => awaiting text
  | some e => opening [text] ++ e.outline

/-- The last clause, whose two words are read before the nesting gets deeper. -/
def Expression.groupingOutline : Option Expression → Outline
  | none => nothing
  | some e => plain ++ e.outline

def Conjunction.outline : Conjunction → Outline
  | .allOf conditions => joined (Condition.outlines conditions)

def Conjunction.outlines : List Conjunction → List Outline
  | [] => []
  | c :: cs => c.outline :: Conjunction.outlines cs

def Condition.outline : Condition → Outline
  | .test operand predicate => operand.outline ++ Predicate.outlineIn predicate
  | .not condition => plain ++ condition.outline.deeper
  | .exists query => plain ++ query.outline.enclosed

def Condition.outlines : List Condition → List Outline
  | [] => []
  | c :: cs => c.outline :: Condition.outlines cs

def Predicate.outline : Predicate → Outline
  | .compare _ right => plain ++ right.outline
  | .isNull _ => plain
  | .isDistinctFrom _ other => plain ++ other.outline
  | .between _ low high => plain ++ low.outline ++ (plain ++ high.outline)
  | .inSelect _ query => plain ++ query.outline.enclosed
  | .inList _ items => plain ++ (joined (Expression.outlines items)).enclosed
  | .like _ pattern => plain ++ pattern.outline

def Predicate.outlineIn : Option Predicate → Outline
  | none => nothing
  | some p => p.outline

def Comparand.outline : Comparand → Outline
  | .operand operand => operand.outline
  | .quantified _ query => plain ++ query.outline.enclosed

def Operand.outline : Operand → Outline
  | .concat parts => joined (Summand.outlines parts)

def Summand.outline : Summand → Outline
  | .sum first rest => first.outline ++ sequence (Addend.outlines rest)

def Summand.outlines : List Summand → List Outline
  | [] => []
  | s :: ss => s.outline :: Summand.outlines ss

def Addend.outline : Addend → Outline
  | .mk _ factor => plain ++ factor.outline

def Addend.outlines : List Addend → List Outline
  | [] => []
  | a :: rest => a.outline :: Addend.outlines rest

def Factor.outline : Factor → Outline
  | .product first rest => first.outline ++ sequence (Multiplier.outlines rest)

def Multiplier.outline : Multiplier → Outline
  | .mk _ term => plain ++ term.outline

def Multiplier.outlines : List Multiplier → List Outline
  | [] => []
  | m :: rest => m.outline :: Multiplier.outlines rest

def Term.outline : Term → Outline
  | .select query => query.outline
  | .wildcard | .number _ | .string _ | .boolean _ | .null => plain
  | .array items => (joined (Expression.outlines items)).enclosed
  | .name _ => Outline.name
  | .call _ arguments => opening ["OFFSET"] ++ (joined (Expression.outlines arguments)).enclosed
  | .grouped inner => inner.outline.enclosed

def Term.topOutline : Option Term → Outline
  | none => nothing
  | some t => plain ++ t.outline

def Select.outline : Select → Outline
  | .mk top quantifier projection sources filter limit offset grouping =>
    opening ["SELECT"] ++ (Term.topOutline top ++ given quantifier ++ projection.outline
      ++ (plain ++ joined (TableExpression.outlines sources))
      ++ Expression.clauseOutline "WHERE" filter ++ Expression.clauseOutline "LIMIT" limit
      ++ Expression.clauseOutline "OFFSET" offset ++ Expression.groupingOutline grouping).deeper

def Projection.outline : Projection → Outline
  | .all => plain
  | .items items => joined (AliasedExpression.outlines items)

def AliasedExpression.outline : AliasedExpression → Outline
  | .mk value label => value.outline ++ given label

def AliasedExpression.outlines : List AliasedExpression → List Outline
  | [] => []
  | a :: rest => a.outline :: AliasedExpression.outlines rest

def TableExpression.outline : TableExpression → Outline
  | .mk source label => source.outline ++ given label

def TableExpression.outlines : List TableExpression → List Outline
  | [] => []
  | t :: ts => t.outline :: TableExpression.outlines ts

def TableSource.outline : TableSource → Outline
  | .values items => plain ++ (joined (Expression.outlines items)).enclosed
  | .subquery query => query.outline.enclosed
  | .table _ => opening ["OFFSET"]

end

namespace Outline

variable {α : Type} {f : α → Outline} {xs : List α} {os : List Outline}

/-- The outlines of a list are those of its items. -/
theorem map_of_forall₂ (h : List.Forall₂ (fun x o => f x = o) xs os) : xs.map f = os := by
  induction h with
  | nil => rfl
  | cons same _ ih => simp [same, ih]

end Outline

theorem Expression.outlines_eq_map (es : List Expression) :
    Expression.outlines es = es.map Expression.outline := by
  induction es with
  | nil => rfl
  | cons e es ih => simp [Expression.outlines, ih]

theorem Conjunction.outlines_eq_map (cs : List Conjunction) :
    Conjunction.outlines cs = cs.map Conjunction.outline := by
  induction cs with
  | nil => rfl
  | cons c cs ih => simp [Conjunction.outlines, ih]

theorem Condition.outlines_eq_map (cs : List Condition) :
    Condition.outlines cs = cs.map Condition.outline := by
  induction cs with
  | nil => rfl
  | cons c cs ih => simp [Condition.outlines, ih]

theorem Summand.outlines_eq_map (ss : List Summand) :
    Summand.outlines ss = ss.map Summand.outline := by
  induction ss with
  | nil => rfl
  | cons s ss ih => simp [Summand.outlines, ih]

theorem Addend.outlines_eq_map (rest : List Addend) :
    Addend.outlines rest = rest.map Addend.outline := by
  induction rest with
  | nil => rfl
  | cons a rest ih => simp [Addend.outlines, ih]

theorem Multiplier.outlines_eq_map (rest : List Multiplier) :
    Multiplier.outlines rest = rest.map Multiplier.outline := by
  induction rest with
  | nil => rfl
  | cons m rest ih => simp [Multiplier.outlines, ih]

theorem AliasedExpression.outlines_eq_map (items : List AliasedExpression) :
    AliasedExpression.outlines items = items.map AliasedExpression.outline := by
  induction items with
  | nil => rfl
  | cons a items ih => simp [AliasedExpression.outlines, ih]

theorem TableExpression.outlines_eq_map (ts : List TableExpression) :
    TableExpression.outlines ts = ts.map TableExpression.outline := by
  induction ts with
  | nil => rfl
  | cons t ts ih => simp [TableExpression.outlines, ih]

namespace Outline

variable {levels : Nat} {o o' : Outline} {os : List Outline}

/-- There are so many levels if the part may begin with a query. -/
def Deep (levels : Nat) (o : Outline) : Prop := "SELECT" ∈ o.opens → levels ≤ o.nest

theorem Deep.append (h : o.Deep levels) (closed : o'.opens = []) : (o ++ o').Deep levels := by
  intro opens
  have begins : "SELECT" ∈ o.opens := by simpa [opens_append, closed] using opens
  exact Nat.le_trans (h begins) (Nat.le_max_left o.nest o'.nest)

theorem Deep.deeper (h : o.Deep levels) : o.deeper.Deep (levels + 1) :=
  fun opens => Nat.succ_le_succ (h opens)

theorem opens_sequence (closed : ∀ o ∈ os, o.opens = []) : (sequence os).opens = [] := by
  induction os with
  | nil => rfl
  | cons o os ih =>
    obtain ⟨first, rest⟩ := List.forall_mem_cons.1 closed
    change (o ++ sequence os).opens = []
    rw [opens_append, first, ih rest, List.append_nil, ite_self]

theorem Deep.joined (h : ∀ o ∈ os, o.Deep levels) : (Outline.joined os).Deep levels := by
  cases os with
  | nil => exact nofun
  | cons o os =>
    refine (h o List.mem_cons_self).append (opens_sequence fun o' ho' => ?_)
    obtain ⟨_, -, rfl⟩ := List.mem_map.1 ho'
    rfl

end Outline

theorem Term.deep_outline (t : Term) : t.outline.Deep 1 := by
  cases t with
  | select query =>
    obtain ⟨_, _, _, _, _, _, _, _⟩ := query
    exact fun _ => Nat.le_trans (Nat.le_add_left 1 _) (Nat.le_max_right _ _)
  | wildcard | number | string | boolean | null => exact nofun
  | array | grouped => exact fun opens => absurd (show "SELECT" ∈ ["("] from opens) (by decide)
  | name | call => exact fun opens => absurd (show "SELECT" ∈ ["OFFSET"] from opens) (by decide)

theorem Factor.deep_outline (x : Factor) : x.outline.Deep 1 := by
  obtain ⟨first, rest⟩ := x
  refine first.deep_outline.append (opens_sequence ?_)
  rw [Multiplier.outlines_eq_map]
  exact List.forall_mem_map.2 fun ⟨_, _⟩ _ => rfl

theorem Summand.deep_outline (x : Summand) : x.outline.Deep 1 := by
  obtain ⟨first, rest⟩ := x
  refine first.deep_outline.append (opens_sequence ?_)
  rw [Addend.outlines_eq_map]
  exact List.forall_mem_map.2 fun ⟨_, _⟩ _ => rfl

theorem Operand.deep_outline (x : Operand) : x.outline.Deep 1 := by
  obtain ⟨parts⟩ := x
  rw [Operand.outline, Summand.outlines_eq_map]
  exact .joined (List.forall_mem_map.2 fun part _ => part.deep_outline)

/-- What follows an operand begins with none of the words. -/
theorem Predicate.opens_outlineIn (p : Option Predicate) : (Predicate.outlineIn p).opens = [] := by
  rcases p with _ | p
  · rfl
  · cases p <;> rfl

theorem Predicate.plain_outline (p : Predicate) : plain ++ p.outline = p.outline := by
  cases p with
  | between _ low high =>
    change plain ++ (plain ++ low.outline ++ (plain ++ high.outline)) = _
    rw [plain, opening_append, opening_append]
    rfl
  | isNull => rfl
  | _ => exact opening_plain [] _

theorem Condition.deep_outline (c : Condition) : c.outline.Deep 1 := by
  cases c with
  | test operand predicate =>
    exact operand.deep_outline.append (Predicate.opens_outlineIn predicate)
  | not => exact nofun
  | «exists» => exact nofun

theorem Expression.deep_outline (e : Expression) : e.outline.Deep 2 := by
  obtain ⟨disjuncts⟩ := e
  refine Deep.deeper ?_
  rw [Conjunction.outlines_eq_map]
  refine .joined (List.forall_mem_map.2 fun ⟨conditions⟩ _ => ?_)
  rw [Conjunction.outline, Condition.outlines_eq_map]
  exact .joined (List.forall_mem_map.2 fun condition _ => condition.deep_outline)

/-- An expression in a list begins with a query only if there are two levels. -/
theorem Expression.deep_joined (es : List Expression) :
    (joined (Expression.outlines es)).Deep 2 := by
  rw [Expression.outlines_eq_map]
  exact .joined (List.forall_mem_map.2 fun e _ => e.deep_outline)

/-- The levels of nesting: one for an expression, one for a `NOT` and one for a query. -/
def Expression.nest (e : Expression) : Nat := e.outline.nest

/-- With that limit of nesting, no word could belong to another part than it does: a part may be
followed by a word that it could go on with only if that is no parenthesis and the tree stays below
the limit. -/
def Expression.Settled (limit : Nat) (e : Expression) : Prop :=
  ∀ text ∈ e.outline.clashes, text ≠ "(" ∧ e.nest < limit

instance (limit : Nat) (e : Expression) : Decidable (e.Settled limit) :=
  inferInstanceAs (Decidable (∀ text ∈ e.outline.clashes, _))

end TableDdl
