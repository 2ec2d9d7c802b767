import TableDdl.Expression.Layout
import TableDdl.Proofs.RoundTrip.Edges

/-!
# Heads of references

The first names of all references in an expression or query, in the order in which they are
written, and the written text of each kind of phrase together with them.
-/
namespace TableDdl

mutual

def Expression.heads : Expression → List String
  | .anyOf disjuncts => Conjunction.headsAll disjuncts

def Expression.headsAll : List Expression → List String
  | [] => []
  | e :: es => e.heads ++ Expression.headsAll es

def Expression.headsIn : Option Expression → List String
  | none => []
  | some e => e.heads

def Conjunction.heads : Conjunction → List String
  | .allOf conditions => Condition.headsAll conditions

def Conjunction.headsAll : List Conjunction → List String
  | [] => []
  | c :: cs => c.heads ++ Conjunction.headsAll cs

def Condition.heads : Condition → List String
  | .test operand predicate => operand.heads ++ Predicate.headsIn predicate
  | .not condition => condition.heads
  | .exists query => query.heads

def Condition.headsAll : List Condition → List String
  | [] => []
  | c :: cs => c.heads ++ Condition.headsAll cs

def Predicate.heads : Predicate → List String
  | .compare _ right => right.heads
  | .isNull _ => []
  | .isDistinctFrom _ other => other.heads
  | .between _ low high => low.heads ++ high.heads
  | .inSelect _ query => query.heads
  | .inList _ items => Expression.headsAll items
  | .like _ pattern => pattern.heads

def Predicate.headsIn : Option Predicate → List String
  | none => []
  | some p => p.heads

def Comparand.heads : Comparand → List String
  | .operand operand => operand.heads
  | .quantified _ query => query.heads

def Operand.heads : Operand → List String
  | .concat parts => Summand.headsAll parts

def Summand.heads : Summand → List String
  | .sum first rest => first.heads ++ Addend.headsAll rest

def Summand.headsAll : List Summand → List String
  | [] => []
  | s :: ss => s.heads ++ Summand.headsAll ss

def Addend.heads : Addend → List String
  | .mk _ factor => factor.heads

def Addend.headsAll : List Addend → List String
  | [] => []
  | a :: rest => a.heads ++ Addend.headsAll rest

def Factor.heads : Factor → List String
  | .product first rest => first.heads ++ Multiplier.headsAll rest

def Multiplier.heads : Multiplier → List String
  | .mk _ term => term.heads

def Multiplier.headsAll : List Multiplier → List String
  | [] => []
  | m :: rest => m.heads ++ Multiplier.headsAll rest

def Term.heads : Term → List String
  | .select query => query.heads
  | .wildcard | .number _ | .string _ | .boolean _ | .null => []
  | .array items => Expression.headsAll items
  | .name path => path.take 1
  | .call path arguments => path.take 1 ++ Expression.headsAll arguments
  | .grouped inner => inner.heads

def Term.headsIn : Option Term → List String
  | none => []
  | some t => t.heads

def Select.heads : Select → List String
  | .mk top _ projection sources filter limit offset grouping =>
    Term.headsIn top ++ projection.heads ++ TableExpression.headsAll sources
      ++ Expression.headsIn filter ++ Expression.headsIn limit ++ Expression.headsIn offset
      ++ Expression.headsIn grouping

def Projection.heads : Projection → List String
  | .all => []
  | .items items => AliasedExpression.headsAll items

def AliasedExpression.heads : AliasedExpression → List String
  | .mk value _ => value.heads

def AliasedExpression.headsAll : List AliasedExpression → List String
  | [] => []
  | a :: rest => a.heads ++ AliasedExpression.headsAll rest

def TableExpression.heads : TableExpression → List String
  | .mk source _ => source.heads

def TableExpression.headsAll : List TableExpression → List String
  | [] => []
  | t :: ts => t.heads ++ TableExpression.headsAll ts

def TableSource.heads : TableSource → List String
  | .values items => Expression.headsAll items
  | .subquery query => query.heads
  | .table _ => []

end

-- The layouts and heads of a list are functions of their own, since they recur together with those
-- of single phrases; they are what the list functions of the library make of these.
section Lists

variable {α β : Type}

theorem eq_map_of_step {F : List α → List β} {f : α → β} (nil : F [] = [])
    (cons : ∀ x xs, F (x :: xs) = f x :: F xs) (xs : List α) : F xs = xs.map f := by
  induction xs with
  | nil => exact nil
  | cons x xs ih => rw [cons, ih, List.map_cons]

theorem eq_flatMap_of_step {F : List α → List β} {f : α → List β} (nil : F [] = [])
    (cons : ∀ x xs, F (x :: xs) = f x ++ F xs) (xs : List α) : F xs = xs.flatMap f := by
  induction xs with
  | nil => exact nil
  | cons x xs ih => rw [cons, ih, List.flatMap_cons]

end Lists

theorem Expression.layouts_eq : ∀ xs, Expression.layouts xs = xs.map Expression.layout :=
  eq_map_of_step (by rw [Expression.layouts]) fun _ _ => by rw [Expression.layouts]

theorem Conjunction.layouts_eq : ∀ xs, Conjunction.layouts xs = xs.map Conjunction.layout :=
  eq_map_of_step (by rw [Conjunction.layouts]) fun _ _ => by rw [Conjunction.layouts]

theorem Condition.layouts_eq : ∀ xs, Condition.layouts xs = xs.map Condition.layout :=
  eq_map_of_step (by rw [Condition.layouts]) fun _ _ => by rw [Condition.layouts]

theorem Summand.layouts_eq : ∀ xs, Summand.layouts xs = xs.map Summand.layout :=
  eq_map_of_step (by rw [Summand.layouts]) fun _ _ => by rw [Summand.layouts]

theorem AliasedExpression.layouts_eq :
    ∀ xs, AliasedExpression.layouts xs = xs.map AliasedExpression.layout :=
  eq_map_of_step (by rw [AliasedExpression.layouts]) fun _ _ => by rw [AliasedExpression.layouts]

theorem TableExpression.layouts_eq :
    ∀ xs, TableExpression.layouts xs = xs.map TableExpression.layout :=
  eq_map_of_step (by rw [TableExpression.layouts]) fun _ _ => by rw [TableExpression.layouts]

theorem Addend.layouts_eq : ∀ xs, Addend.layouts xs = xs.flatMap Addend.layout :=
  eq_flatMap_of_step (by rw [Addend.layouts]) fun _ _ => by rw [Addend.layouts]

theorem Multiplier.layouts_eq : ∀ xs, Multiplier.layouts xs = xs.flatMap Multiplier.layout :=
  eq_flatMap_of_step (by rw [Multiplier.layouts]) fun _ _ => by rw [Multiplier.layouts]

theorem Expression.headsAll_eq : ∀ xs, Expression.headsAll xs = xs.flatMap Expression.heads :=
  eq_flatMap_of_step (by rw [Expression.headsAll]) fun _ _ => by rw [Expression.headsAll]

theorem Conjunction.headsAll_eq : ∀ xs, Conjunction.headsAll xs = xs.flatMap Conjunction.heads :=
  eq_flatMap_of_step (by rw [Conjunction.headsAll]) fun _ _ => by rw [Conjunction.headsAll]

theorem Condition.headsAll_eq : ∀ xs, Condition.headsAll xs = xs.flatMap Condition.heads :=
  eq_flatMap_of_step (by rw [Condition.headsAll]) fun _ _ => by rw [Condition.headsAll]

theorem Summand.headsAll_eq : ∀ xs, Summand.headsAll xs = xs.flatMap Summand.heads :=
  eq_flatMap_of_step (by rw [Summand.headsAll]) fun _ _ => by rw [Summand.headsAll]

theorem Addend.headsAll_eq : ∀ xs, Addend.headsAll xs = xs.flatMap Addend.heads :=
  eq_flatMap_of_step (by rw [Addend.headsAll]) fun _ _ => by rw [Addend.headsAll]

theorem Multiplier.headsAll_eq : ∀ xs, Multiplier.headsAll xs = xs.flatMap Multiplier.heads :=
  eq_flatMap_of_step (by rw [Multiplier.headsAll]) fun _ _ => by rw [Multiplier.headsAll]

theorem AliasedExpression.headsAll_eq :
    ∀ xs, AliasedExpression.headsAll xs = xs.flatMap AliasedExpression.heads :=
  eq_flatMap_of_step (by rw [AliasedExpression.headsAll])
    fun _ _ => by rw [AliasedExpression.headsAll]

theorem TableExpression.headsAll_eq :
    ∀ xs, TableExpression.headsAll xs = xs.flatMap TableExpression.heads :=
  eq_flatMap_of_step (by rw [TableExpression.headsAll]) fun _ _ => by rw [TableExpression.headsAll]

end TableDdl
