import TableDdl.Expression.Grammar
import TableDdl.Text.Word

/-!
# Layout of expressions and queries

Operators stand between spaces, list items after a comma and a space, and there are no
parentheses but those of the tree.
-/
namespace TableDdl

namespace Layout

/-- A word after a space stands before the part, where there is one. -/
def negation (negated : Bool) : Layout := if negated then word "NOT" ++ space else []

/-- A path of names. A time function at its head is no name and has no quotes. -/
def path : List String → Layout
  | [] => []
  | head :: rest =>
    (if timeFunctionNames.any (Text.sameWord head) then word head else name head)
      ++ rest.flatMap fun part => symbol "." ++ name part

def labelClause (label : Option String) : Layout :=
  given label fun l => word "AS" ++ space ++ name l

end Layout

open Layout

mutual

def Expression.layout : Expression → Layout
  | .anyOf disjuncts => joined (space ++ word "OR" ++ space) (Conjunction.layouts disjuncts)

def Expression.layouts : List Expression → List Layout
  | [] => []
  | e :: es => e.layout :: Expression.layouts es

/-- The words and the expression after them, after a space, where there is one. -/
def Expression.clause (keywords : List String) : Option Expression → Layout
  | none => []
  | some e => space ++ words keywords ++ space ++ e.layout

def Conjunction.layout : Conjunction → Layout
  | .allOf conditions => joined (space ++ word "AND" ++ space) (Condition.layouts conditions)

def Conjunction.layouts : List Conjunction → List Layout
  | [] => []
  | c :: cs => c.layout :: Conjunction.layouts cs

def Condition.layout : Condition → Layout
  | .test operand predicate => operand.layout ++ Predicate.layoutAfter predicate
  | .not condition => word "NOT" ++ space ++ condition.layout
  | .exists query => word "EXISTS" ++ space ++ parenthesized query.layout

def Condition.layouts : List Condition → List Layout
  | [] => []
  | c :: cs => c.layout :: Condition.layouts cs

def Predicate.layout : Predicate → Layout
  | .compare op right => symbol (Spelled.head op) ++ space ++ right.layout
  | .isNull negated => word "IS" ++ space ++ negation negated ++ word "NULL"
  | .isDistinctFrom negated other =>
    word "IS" ++ space ++ negation negated ++ words ["DISTINCT", "FROM"] ++ space ++ other.layout
  | .between negated low high =>
    negation negated ++ word "BETWEEN" ++ space ++ low.layout ++ space ++ word "AND" ++ space
      ++ high.layout
  | .inSelect negated query => negation negated ++ word "IN" ++ space ++ parenthesized query.layout
  | .inList negated items =>
    negation negated ++ word "IN" ++ space
      ++ parenthesized (commaSeparated (Expression.layouts items))
  | .like negated pattern => negation negated ++ word "LIKE" ++ space ++ pattern.layout

def Predicate.layoutAfter : Option Predicate → Layout
  | none => []
  | some p => space ++ p.layout

def Comparand.layout : Comparand → Layout
  | .operand operand => operand.layout
  | .quantified quantifier query =>
    word (Spelled.head quantifier) ++ space ++ parenthesized query.layout

def Operand.layout : Operand → Layout
  | .concat parts => joined (space ++ symbol "||" ++ space) (Summand.layouts parts)

def Summand.layout : Summand → Layout
  | .sum first rest => first.layout ++ Addend.layouts rest

def Summand.layouts : List Summand → List Layout
  | [] => []
  | s :: ss => s.layout :: Summand.layouts ss

def Addend.layout : Addend → Layout
  | .mk op factor => space ++ symbol (Spelled.head op) ++ space ++ factor.layout

def Addend.layouts : List Addend → Layout
  | [] => []
  | a :: rest => a.layout ++ Addend.layouts rest

def Factor.layout : Factor → Layout
  | .product first rest => first.layout ++ Multiplier.layouts rest

def Multiplier.layout : Multiplier → Layout
  | .mk op term => space ++ symbol (Spelled.head op) ++ space ++ term.layout

def Multiplier.layouts : List Multiplier → Layout
  | [] => []
  | m :: rest => m.layout ++ Multiplier.layouts rest

def Term.layout : Term → Layout
  | .select query => query.layout
  | .wildcard => symbol "*"
  | .number x => Layout.number x
  | .string content => Layout.string content
  | .boolean b => Layout.boolean b
  | .null => word "NULL"
  | .array items => parenthesized (commaSeparated (Expression.layouts items))
  | .name path => Layout.path path
  | .call path arguments =>
    Layout.path path ++ parenthesized (commaSeparated (Expression.layouts arguments))
  | .grouped inner => parenthesized inner.layout

def Term.layoutTop : Option Term → Layout
  | none => []
  | some t => space ++ word "TOP" ++ space ++ t.layout

def Select.layout : Select → Layout
  | .mk top quantifier projection sources filter limit offset grouping =>
    word "SELECT" ++ Term.layoutTop top ++ given quantifier spelled ++ space ++ projection.layout
      ++ space ++ word "FROM" ++ space ++ commaSeparated (TableExpression.layouts sources)
      ++ Expression.clause ["WHERE"] filter ++ Expression.clause ["LIMIT"] limit
      ++ Expression.clause ["OFFSET"] offset ++ Expression.clause ["GROUP", "BY"] grouping

def Projection.layout : Projection → Layout
  | .all => symbol "*"
  | .items items => commaSeparated (AliasedExpression.layouts items)

def AliasedExpression.layout : AliasedExpression → Layout
  | .mk value label => value.layout ++ labelClause label

def AliasedExpression.layouts : List AliasedExpression → List Layout
  | [] => []
  | a :: rest => a.layout :: AliasedExpression.layouts rest

def TableExpression.layout : TableExpression → Layout
  | .mk source label => source.layout ++ labelClause label

def TableExpression.layouts : List TableExpression → List Layout
  | [] => []
  | t :: ts => t.layout :: TableExpression.layouts ts

def TableSource.layout : TableSource → Layout
  | .values items =>
    word "VALUES" ++ space ++ parenthesized (commaSeparated (Expression.layouts items))
  | .subquery query => parenthesized query.layout
  | .table path => joined (symbol ".") (path.map name)

end

end TableDdl
