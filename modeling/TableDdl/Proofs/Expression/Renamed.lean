import TableDdl.Proofs.Expression.Heads

/-!
# Expressions with other names

An expression or query with every name in it replaced. Names are those of columns, functions,
tables and labels; the contents of string literals are none.
-/
namespace TableDdl

mutual

def Expression.renamed (f : String → String) : Expression → Expression
  | .anyOf disjuncts => .anyOf (Conjunction.renamedList f disjuncts)

def Expression.renamedList (f : String → String) : List Expression → List Expression
  | [] => []
  | e :: es => e.renamed f :: Expression.renamedList f es

def Expression.renamedOption (f : String → String) : Option Expression → Option Expression
  | none => none
  | some e => some (e.renamed f)

def Conjunction.renamed (f : String → String) : Conjunction → Conjunction
  | .allOf conditions => .allOf (Condition.renamedList f conditions)

def Conjunction.renamedList (f : String → String) : List Conjunction → List Conjunction
  | [] => []
  | c :: cs => c.renamed f :: Conjunction.renamedList f cs

def Condition.renamed (f : String → String) : Condition → Condition
  | .test operand predicate => .test (operand.renamed f) (Predicate.renamedOption f predicate)
  | .not condition => .not (condition.renamed f)
  | .exists query => .exists (query.renamed f)

def Condition.renamedList (f : String → String) : List Condition → List Condition
  | [] => []
  | c :: cs => c.renamed f :: Condition.renamedList f cs

def Predicate.renamed (f : String → String) : Predicate → Predicate
  | .compare op right => .compare op (right.renamed f)
  | .isNull negated => .isNull negated
  | .isDistinctFrom negated other => .isDistinctFrom negated (other.renamed f)
  | .between negated low high => .between negated (low.renamed f) (high.renamed f)
  | .inSelect negated query => .inSelect negated (query.renamed f)
  | .inList negated items => .inList negated (Expression.renamedList f items)
  | .like negated pattern => .like negated (pattern.renamed f)

def Predicate.renamedOption (f : String → String) : Option Predicate → Option Predicate
  | none => none
  | some p => some (p.renamed f)

def Comparand.renamed (f : String → String) : Comparand → Comparand
  | .operand operand => .operand (operand.renamed f)
  | .quantified quantifier query => .quantified quantifier (query.renamed f)

def Operand.renamed (f : String → String) : Operand → Operand
  | .concat parts => .concat (Summand.renamedList f parts)

def Summand.renamed (f : String → String) : Summand → Summand
  | .sum first rest => .sum (first.renamed f) (Addend.renamedList f rest)

def Summand.renamedList (f : String → String) : List Summand → List Summand
  | [] => []
  | s :: ss => s.renamed f :: Summand.renamedList f ss

def Addend.renamed (f : String → String) : Addend → Addend
  | .mk op factor => .mk op (factor.renamed f)

def Addend.renamedList (f : String → String) : List Addend → List Addend
  | [] => []
  | a :: rest => a.renamed f :: Addend.renamedList f rest

def Factor.renamed (f : String → String) : Factor → Factor
  | .product first rest => .product (first.renamed f) (Multiplier.renamedList f rest)

def Multiplier.renamed (f : String → String) : Multiplier → Multiplier
  | .mk op term => .mk op (term.renamed f)

def Multiplier.renamedList (f : String → String) : List Multiplier → List Multiplier
  | [] => []
  | m :: rest => m.renamed f :: Multiplier.renamedList f rest

def Term.renamed (f : String → String) : Term → Term
  | .select query => .select (query.renamed f)
  | .wildcard => .wildcard
  | .number x => .number x
  | .string content => .string content
  | .boolean b => .boolean b
  | .null => .null
  | .array items => .array (Expression.renamedList f items)
  | .name path => .name (path.map f)
  | .call path arguments => .call (path.map f) (Expression.renamedList f arguments)
  | .grouped inner => .grouped (inner.renamed f)

def Term.renamedOption (f : String → String) : Option Term → Option Term
  | none => none
  | some t => some (t.renamed f)

def Select.renamed (f : String → String) : Select → Select
  | .mk top quantifier projection sources filter limit offset grouping =>
    .mk (Term.renamedOption f top) quantifier (projection.renamed f)
      (TableExpression.renamedList f sources) (Expression.renamedOption f filter)
      (Expression.renamedOption f limit) (Expression.renamedOption f offset)
      (Expression.renamedOption f grouping)

def Projection.renamed (f : String → String) : Projection → Projection
  | .all => .all
  | .items items => .items (AliasedExpression.renamedList f items)

def AliasedExpression.renamed (f : String → String) : AliasedExpression → AliasedExpression
  | .mk value label => .mk (value.renamed f) (label.map f)

def AliasedExpression.renamedList (f : String → String) :
    List AliasedExpression → List AliasedExpression
  | [] => []
  | a :: rest => a.renamed f :: AliasedExpression.renamedList f rest

def TableExpression.renamed (f : String → String) : TableExpression → TableExpression
  | .mk source label => .mk (source.renamed f) (label.map f)

def TableExpression.renamedList (f : String → String) :
    List TableExpression → List TableExpression
  | [] => []
  | t :: ts => t.renamed f :: TableExpression.renamedList f ts

def TableSource.renamed (f : String → String) : TableSource → TableSource
  | .values items => .values (Expression.renamedList f items)
  | .subquery query => .subquery (query.renamed f)
  | .table path => .table (path.map f)

end

-- Lists and options are renamed member by member.
variable (f : String → String)

@[simp] theorem Expression.renamedList_eq :
    ∀ xs, Expression.renamedList f xs = xs.map (Expression.renamed f) :=
  eq_map_of_step (by rw [Expression.renamedList]) fun _ _ => by rw [Expression.renamedList]

@[simp] theorem Conjunction.renamedList_eq :
    ∀ xs, Conjunction.renamedList f xs = xs.map (Conjunction.renamed f) :=
  eq_map_of_step (by rw [Conjunction.renamedList]) fun _ _ => by rw [Conjunction.renamedList]

@[simp] theorem Condition.renamedList_eq :
    ∀ xs, Condition.renamedList f xs = xs.map (Condition.renamed f) :=
  eq_map_of_step (by rw [Condition.renamedList]) fun _ _ => by rw [Condition.renamedList]

@[simp] theorem Summand.renamedList_eq :
    ∀ xs, Summand.renamedList f xs = xs.map (Summand.renamed f) :=
  eq_map_of_step (by rw [Summand.renamedList]) fun _ _ => by rw [Summand.renamedList]

@[simp] theorem Addend.renamedList_eq :
    ∀ xs, Addend.renamedList f xs = xs.map (Addend.renamed f) :=
  eq_map_of_step (by rw [Addend.renamedList]) fun _ _ => by rw [Addend.renamedList]

@[simp] theorem Multiplier.renamedList_eq :
    ∀ xs, Multiplier.renamedList f xs = xs.map (Multiplier.renamed f) :=
  eq_map_of_step (by rw [Multiplier.renamedList]) fun _ _ => by rw [Multiplier.renamedList]

@[simp] theorem AliasedExpression.renamedList_eq :
    ∀ xs, AliasedExpression.renamedList f xs = xs.map (AliasedExpression.renamed f) :=
  eq_map_of_step (by rw [AliasedExpression.renamedList]) fun _ _ => by rw [AliasedExpression.renamedList]

@[simp] theorem TableExpression.renamedList_eq :
    ∀ xs, TableExpression.renamedList f xs = xs.map (TableExpression.renamed f) :=
  eq_map_of_step (by rw [TableExpression.renamedList]) fun _ _ => by rw [TableExpression.renamedList]

@[simp] theorem Expression.renamedOption_eq (x : Option Expression) :
    Expression.renamedOption f x = x.map (Expression.renamed f) := by
  cases x <;> rfl

@[simp] theorem Predicate.renamedOption_eq (x : Option Predicate) :
    Predicate.renamedOption f x = x.map (Predicate.renamed f) := by
  cases x <;> rfl

@[simp] theorem Term.renamedOption_eq (x : Option Term) :
    Term.renamedOption f x = x.map (Term.renamed f) := by
  cases x <;> rfl

end TableDdl
