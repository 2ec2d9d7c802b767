import TableDdl.Spelling

/-!
# Expressions and queries

The tree follows the precedence of the operators: disjunction binds loosest, then conjunction,
negation, comparison, concatenation, sums and products. A query is a `SELECT` that may stand
wherever a term may.
-/
namespace TableDdl

inductive CompareOp
  | notEqual
  | lessEqual
  | greaterEqual
  | equal
  | less
  | greater
deriving DecidableEq

instance : Spelled CompareOp where
  first := .notEqual
  others := [.lessEqual, .greaterEqual, .equal, .less, .greater]
  head
    | .notEqual => "<>"
    | .lessEqual => "<="
    | .greaterEqual => ">="
    | .equal => "="
    | .less => "<"
    | .greater => ">"
  label
    | .notEqual => "NotEq"
    | .lessEqual => "LtEq"
    | .greaterEqual => "GtEq"
    | .equal => "Eq"
    | .less => "Lt"
    | .greater => "Gt"

inductive Quantifier
  | all
  | any
  | some
deriving DecidableEq

instance : Spelled Quantifier where
  first := .all
  others := [.any, .some]
  head
    | .all => "ALL"
    | .any => "ANY"
    | .some => "SOME"
  label
    | .all => "All"
    | .any => "Any"
    | .some => "Some"

inductive AddOp
  | add
  | subtract
deriving DecidableEq

instance : Spelled AddOp where
  first := .add
  others := [.subtract]
  head
    | .add => "+"
    | .subtract => "-"
  label
    | .add => "Add"
    | .subtract => "Sub"

inductive MultiplyOp
  | multiply
  | divide
  | remainder
deriving DecidableEq

instance : Spelled MultiplyOp where
  first := .multiply
  others := [.divide, .remainder]
  head
    | .multiply => "*"
    | .divide => "/"
    | .remainder => "%"
  label
    | .multiply => "Mul"
    | .divide => "Div"
    | .remainder => "Mod"

inductive SelectQuantifier
  | distinct
  | all
deriving DecidableEq

instance : Spelled SelectQuantifier where
  first := .distinct
  others := [.all]
  head
    | .distinct => "DISTINCT"
    | .all => "ALL"
  label
    | .distinct => "Distinct"
    | .all => "All"

mutual

inductive Expression
  | anyOf (disjuncts : List Conjunction)

inductive Conjunction
  | allOf (conditions : List Condition)

inductive Condition
  | test (operand : Operand) (predicate : Option Predicate)
  | not (condition : Condition)
  | exists (query : Select)

inductive Predicate
  | compare (op : CompareOp) (right : Comparand)
  | isNull (negated : Bool)
  | isDistinctFrom (negated : Bool) (other : Operand)
  | between (negated : Bool) (low high : Operand)
  | inSelect (negated : Bool) (query : Select)
  | inList (negated : Bool) (items : List Expression)
  | like (negated : Bool) (pattern : Operand)

inductive Comparand
  | operand (operand : Operand)
  | quantified (quantifier : Quantifier) (query : Select)

/-- Parts joined by `||`. -/
inductive Operand
  | concat (parts : List Summand)

inductive Summand
  | sum (first : Factor) (rest : List Addend)

inductive Addend
  | mk (op : AddOp) (factor : Factor)

inductive Factor
  | product (first : Term) (rest : List Multiplier)

inductive Multiplier
  | mk (op : MultiplyOp) (term : Term)

inductive Term
  | select (query : Select)
  | wildcard
  | number (x : Number.Binary64)
  | string (content : String)
  | boolean (b : Bool)
  | null
  /-- Two or more expressions in parentheses. -/
  | array (items : List Expression)
  | name (path : List String)
  | call (path : List String) (arguments : List Expression)
  | grouped (inner : Expression)

inductive Select
  | mk (top : Option Term) (quantifier : Option SelectQuantifier) (projection : Projection)
    (sources : List TableExpression) (filter limit offset grouping : Option Expression)

inductive Projection
  | all
  | items (items : List AliasedExpression)

inductive AliasedExpression
  | mk (value : Expression) (label : Option String)

inductive TableExpression
  | mk (source : TableSource) (label : Option String)

inductive TableSource
  | values (items : List Expression)
  | subquery (query : Select)
  | table (path : List String)

end

end TableDdl
