import TableDdl.Dump.Datum
import TableDdl.Expression.Basic

/-!
# Data of expressions and queries

The tree as records and variants. Values and references are nodes of their own there.
-/
namespace TableDdl

open Datum

mutual

def Expression.datum : Expression → Datum
  | .anyOf disjuncts => .record "Expression" [("or", .list (Conjunction.data disjuncts))]

def Expression.data : List Expression → List Datum
  | [] => []
  | e :: es => e.datum :: Expression.data es

def Expression.datumOption : Option Expression → Datum
  | none => .absent
  | some e => .present e.datum

def Conjunction.datum : Conjunction → Datum
  | .allOf conditions => .record "OrCondition" [("and", .list (Condition.data conditions))]

def Conjunction.data : List Conjunction → List Datum
  | [] => []
  | c :: cs => c.datum :: Conjunction.data cs

def Condition.datum : Condition → Datum
  | .test operand predicate =>
    .wrapped "Operand" (.record "ConditionOperand"
      [("operand", operand.datum), ("predicate", Predicate.datumOption predicate)])
  | .not condition => .wrapped "Not" condition.datum
  | .exists query => .wrapped "Exists" query.datum

def Condition.data : List Condition → List Datum
  | [] => []
  | c :: cs => c.datum :: Condition.data cs

def Predicate.datum : Predicate → Datum
  | .compare op right => .tagged "Compare" [("op", spelled op), ("rhs", right.datum)]
  | .isNull negated => .tagged "Is" [("not", .boolean negated), ("rhs", .variant "Null")]
  | .isDistinctFrom negated other =>
    .tagged "Is" [("not", .boolean negated), ("rhs", .wrapped "DistinctFrom" other.datum)]
  | .between negated low high =>
    .tagged "Between" [("not", .boolean negated), ("low", low.datum), ("high", high.datum)]
  | .inSelect negated query =>
    .tagged "In" [("not", .boolean negated), ("list", .wrapped "Select" query.datum)]
  | .inList negated items =>
    .tagged "In" [("not", .boolean negated),
      ("list", .wrapped "Expressions" (.list (Expression.data items)))]
  | .like negated pattern =>
    .tagged "Like" [("not", .boolean negated), ("pattern", pattern.datum)]

def Predicate.datumOption : Option Predicate → Datum
  | none => .absent
  | some p => .present p.datum

def Comparand.datum : Comparand → Datum
  | .operand operand => .wrapped "Operand" operand.datum
  | .quantified quantifier query =>
    .tagged "Quantified" [("quantifier", spelled quantifier), ("select", query.datum)]

def Operand.datum : Operand → Datum
  | .concat parts => .record "Operand" [("summands", .list (Summand.data parts))]

def Summand.datum : Summand → Datum
  | .sum first rest =>
    .record "Summand" [("first", first.datum), ("rest", .list (Addend.data rest))]

def Summand.data : List Summand → List Datum
  | [] => []
  | s :: ss => s.datum :: Summand.data ss

def Addend.datum : Addend → Datum
  | .mk op factor => .pair (spelled op) factor.datum

def Addend.data : List Addend → List Datum
  | [] => []
  | a :: rest => a.datum :: Addend.data rest

def Factor.datum : Factor → Datum
  | .product first rest =>
    .record "Factor" [("first", first.datum), ("rest", .list (Multiplier.data rest))]

def Multiplier.datum : Multiplier → Datum
  | .mk op term => .pair (spelled op) term.datum

def Multiplier.data : List Multiplier → List Datum
  | [] => []
  | m :: rest => m.datum :: Multiplier.data rest

def Term.datum : Term → Datum
  | .select query => .wrapped "Select" query.datum
  | .wildcard => .wrapped "Value" (.variant "Wildcard")
  | .number x => .wrapped "Value" (.wrapped "Number" (.number x))
  | .string content => .wrapped "Value" (.wrapped "String" (.text content))
  | .boolean b => .wrapped "Value" (.wrapped "Boolean" (.boolean b))
  | .null => .wrapped "Value" (.variant "Null")
  | .array items => .wrapped "Value" (.wrapped "Array" (.list (Expression.data items)))
  | .name path =>
    .wrapped "SymbolRef" (.record "SymbolRef" [("path", texts path), ("arguments", .absent)])
  | .call path arguments =>
    .wrapped "SymbolRef" (.record "SymbolRef"
      [("path", texts path), ("arguments", .present (.list (Expression.data arguments)))])
  | .grouped inner => .wrapped "SubExpression" inner.datum

def Term.datumOption : Option Term → Datum
  | none => .absent
  | some t => .present t.datum

def Select.datum : Select → Datum
  | .mk top quantifier projection sources filter limit offset grouping =>
    .record "Select" [
      ("top", Term.datumOption top),
      ("quantifier", option spelled quantifier),
      ("projection", projection.datum),
      ("from", .list (TableExpression.data sources)),
      ("where_clause", Expression.datumOption filter),
      ("limit", Expression.datumOption limit),
      ("offset", Expression.datumOption offset),
      ("group_by", Expression.datumOption grouping)]

def Projection.datum : Projection → Datum
  | .all => .variant "Wildcard"
  | .items items => .wrapped "Expressions" (.list (AliasedExpression.data items))

def AliasedExpression.datum : AliasedExpression → Datum
  | .mk value label =>
    .record "AliasedExpression" [("expression", value.datum), ("alias", option .text label)]

def AliasedExpression.data : List AliasedExpression → List Datum
  | [] => []
  | a :: rest => a.datum :: AliasedExpression.data rest

def TableExpression.datum : TableExpression → Datum
  | .mk source label =>
    .record "TableExpression" [("source", source.datum), ("alias", option .text label)]

def TableExpression.data : List TableExpression → List Datum
  | [] => []
  | t :: ts => t.datum :: TableExpression.data ts

def TableSource.datum : TableSource → Datum
  | .values items => .wrapped "Values" (.list (Expression.data items))
  | .subquery query => .wrapped "Subquery" query.datum
  | .table path => .wrapped "Table" (texts path)

end

end TableDdl
