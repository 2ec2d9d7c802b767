import TableDdl.Expression.Basic

/-!
# Grammar of expressions and queries

Four rules are recursive and have names. Every way from a name back to itself passes a nesting
level: an expression, the operand of `NOT` and the body of a query are one level deeper than
what they stand in.
-/
namespace TableDdl

/-- The recursive rules. -/
inductive Nonterminal : Type → Type
  | expression : Nonterminal Expression
  | condition : Nonterminal Condition
  | term : Nonterminal Term
  | select : Nonterminal Select

abbrev DdlRule := Rule Nonterminal

/-- Words that MySQL reserves and that yet name functions. -/
def timeFunctionNames : List String := ["CURRENT_TIMESTAMP", "LOCALTIME", "LOCALTIMESTAMP", "NOW"]

namespace Grammar

def expression : DdlRule Expression := .call .expression

def select : DdlRule Select := .call .select

def term : DdlRule Term := .call .term

def factor : DdlRule Factor := Factor.product <$> term <*> (Multiplier.mk <$> spelled <*> term).many

def summand : DdlRule Summand := Summand.sum <$> factor <*> (Addend.mk <$> spelled <*> factor).many

def operand : DdlRule Operand := Operand.concat <$> summand.sepBy1 (literal "||")

/-- The operator for unequal has a second spelling. -/
def compareOp : DdlRule CompareOp := spelled <|> (literal "!=").as .notEqual

def comparand : DdlRule Comparand :=
  Comparand.quantified <$> spelled <*> parenthesized select
    <|> Comparand.operand <$> operand

/-- What follows `IS`, given whether it is negated. -/
def isTest : DdlRule (Bool → Predicate) :=
  (literal "NULL").as Predicate.isNull
    <|> (fun other negated => .isDistinctFrom negated other)
      <$> (literal "DISTINCT" *> literal "FROM" *> operand)

/-- The predicates that may have a `NOT` in front. -/
def negatable (negated : Bool) : DdlRule Predicate :=
  Predicate.between negated <$> (literal "BETWEEN" *> operand) <*> (literal "AND" *> operand)
    <|> literal "IN" *> parenthesized
      (Predicate.inSelect negated <$> select <|> Predicate.inList negated <$> commaList expression)
    <|> Predicate.like negated <$> (literal "LIKE" *> operand)

def predicate : DdlRule Predicate :=
  Predicate.compare <$> compareOp <*> comparand
    <|> (fun negated test => test negated) <$> (literal "IS" *> (literal "NOT").flag) <*> isTest
    <|> literal "NOT" *> negatable true
    <|> negatable false

def timeFunctionName : DdlRule String :=
  (literal "CURRENT_TIMESTAMP").as "CURRENT_TIMESTAMP"
    <|> (literal "LOCALTIME").as "LOCALTIME"
    <|> (literal "LOCALTIMESTAMP").as "LOCALTIMESTAMP"
    <|> (literal "NOW").as "NOW"

/-- A column, or a function where arguments follow. -/
def referenceTerm (path : List String) : Option (List Expression) → Term
  | none => .name path
  | some arguments => .call path arguments

/-- Parentheses around one expression group it; around more they make an array. -/
def parenthesizedTerm : List Expression → Term
  | [inner] => .grouped inner
  | items => .array items

def termRule : DdlRule Term :=
  Term.select <$> select
    <|> .oneOf ((literal "*").as .wildcard) [
      Term.number <$> number,
      Term.string <$> string,
      Term.boolean <$> boolean,
      (literal "NULL").as .null]
    <|> (fun head rest => referenceTerm (head :: rest)) <$> (identifier <|> timeFunctionName)
      <*> (literal "." *> identifier).many
      <*> (parenthesized (commaList0 expression)).optional
    <|> parenthesizedTerm <$> parenthesized (commaList expression)

def conditionRule : DdlRule Condition :=
  Condition.not <$> (literal "NOT" *> (Rule.call .condition).nested)
    <|> Condition.exists <$> (literal "EXISTS" *> parenthesized select)
    <|> Condition.test <$> operand <*> predicate.optional

def conjunction : DdlRule Conjunction :=
  Conjunction.allOf <$> (Rule.call .condition).sepBy1 (literal "AND")

def expressionRule : DdlRule Expression :=
  (Expression.anyOf <$> conjunction.sepBy1 (literal "OR")).nested

/-- `AS` and a name for what stands before it. -/
def label : DdlRule (Option String) := (literal "AS" *> identifier).optional

def projection : DdlRule Projection :=
  (literal "*").as .all
    <|> Projection.items <$> commaList (AliasedExpression.mk <$> expression <*> label)

def tableSource : DdlRule TableSource :=
  TableSource.values <$> (literal "VALUES" *> parenthesized (commaList expression))
    <|> TableSource.subquery <$> parenthesized select
    <|> TableSource.table <$> identifier.sepBy1 (literal ".")

def selectBody : DdlRule Select :=
  Select.mk <$> (literal "TOP" *> term).optional
    <*> spelled.optional
    <*> projection
    <*> (literal "FROM" *> commaList (TableExpression.mk <$> tableSource <*> label))
    <*> (literal "WHERE" *> expression).optional
    <*> (literal "LIMIT" *> expression).optional
    <*> (literal "OFFSET" *> expression).optional
    <*> (literal "GROUP" *> literal "BY" *> expression).optional

def selectRule : DdlRule Select := literal "SELECT" *> selectBody.nested

end Grammar

/-- The rules behind the names. -/
def Nonterminal.rule {α : Type} : Nonterminal α → DdlRule α
  | .expression => Grammar.expressionRule
  | .condition => Grammar.conditionRule
  | .term => Grammar.termRule
  | .select => Grammar.selectRule

/-- Calls inside each other without a new level of nesting are at most three, so this many reach
every depth. -/
def Nonterminal.callDepth (maxDepth : Nat) : Nat := 4 * (maxDepth + 2)

end TableDdl
