import TableDdl.Expression.Basic

/-!
# Equality of expressions

Equality of expressions and queries is decided node by node.
-/
namespace TableDdl

mutual

def Expression.decEq : (x y : Expression) → Decidable (x = y)
  | .anyOf a, .anyOf a' =>
    have := Conjunction.decEqList a a'
    decidable_of_iff (a = a') (by simp)
termination_by structural x => x

def Conjunction.decEq : (x y : Conjunction) → Decidable (x = y)
  | .allOf a, .allOf a' =>
    have := Condition.decEqList a a'
    decidable_of_iff (a = a') (by simp)
termination_by structural x => x

def Condition.decEq (x y : Condition) : Decidable (x = y) :=
  if h : x.ctorIdx = y.ctorIdx then
    match x, y, h with
    | .test a b, .test a' b', _ =>
      have := Operand.decEq a a'
      have := Predicate.decEqOption b b'
      decidable_of_iff (a = a' ∧ b = b') (by simp)
    | .not a, .not a', _ =>
      have := Condition.decEq a a'
      decidable_of_iff (a = a') (by simp)
    | .exists a, .exists a', _ =>
      have := Select.decEq a a'
      decidable_of_iff (a = a') (by simp)
  else .isFalse (by rintro rfl; exact h rfl)
termination_by structural x

def Predicate.decEq (x y : Predicate) : Decidable (x = y) :=
  if h : x.ctorIdx = y.ctorIdx then
    match x, y, h with
    | .compare a b, .compare a' b', _ =>
      have := Comparand.decEq b b'
      decidable_of_iff (a = a' ∧ b = b') (by simp)
    | .isNull a, .isNull a', _ =>
      decidable_of_iff (a = a') (by simp)
    | .isDistinctFrom a b, .isDistinctFrom a' b', _ =>
      have := Operand.decEq b b'
      decidable_of_iff (a = a' ∧ b = b') (by simp)
    | .between a b c, .between a' b' c', _ =>
      have := Operand.decEq b b'
      have := Operand.decEq c c'
      decidable_of_iff (a = a' ∧ b = b' ∧ c = c') (by simp)
    | .inSelect a b, .inSelect a' b', _ =>
      have := Select.decEq b b'
      decidable_of_iff (a = a' ∧ b = b') (by simp)
    | .inList a b, .inList a' b', _ =>
      have := Expression.decEqList b b'
      decidable_of_iff (a = a' ∧ b = b') (by simp)
    | .like a b, .like a' b', _ =>
      have := Operand.decEq b b'
      decidable_of_iff (a = a' ∧ b = b') (by simp)
  else .isFalse (by rintro rfl; exact h rfl)
termination_by structural x

def Comparand.decEq (x y : Comparand) : Decidable (x = y) :=
  if h : x.ctorIdx = y.ctorIdx then
    match x, y, h with
    | .operand a, .operand a', _ =>
      have := Operand.decEq a a'
      decidable_of_iff (a = a') (by simp)
    | .quantified a b, .quantified a' b', _ =>
      have := Select.decEq b b'
      decidable_of_iff (a = a' ∧ b = b') (by simp)
  else .isFalse (by rintro rfl; exact h rfl)
termination_by structural x

def Operand.decEq : (x y : Operand) → Decidable (x = y)
  | .concat a, .concat a' =>
    have := Summand.decEqList a a'
    decidable_of_iff (a = a') (by simp)
termination_by structural x => x

def Summand.decEq : (x y : Summand) → Decidable (x = y)
  | .sum a b, .sum a' b' =>
    have := Factor.decEq a a'
    have := Addend.decEqList b b'
    decidable_of_iff (a = a' ∧ b = b') (by simp)
termination_by structural x => x

def Addend.decEq : (x y : Addend) → Decidable (x = y)
  | .mk a b, .mk a' b' =>
    have := Factor.decEq b b'
    decidable_of_iff (a = a' ∧ b = b') (by simp)
termination_by structural x => x

def Factor.decEq : (x y : Factor) → Decidable (x = y)
  | .product a b, .product a' b' =>
    have := Term.decEq a a'
    have := Multiplier.decEqList b b'
    decidable_of_iff (a = a' ∧ b = b') (by simp)
termination_by structural x => x

def Multiplier.decEq : (x y : Multiplier) → Decidable (x = y)
  | .mk a b, .mk a' b' =>
    have := Term.decEq b b'
    decidable_of_iff (a = a' ∧ b = b') (by simp)
termination_by structural x => x

def Term.decEq (x y : Term) : Decidable (x = y) :=
  if h : x.ctorIdx = y.ctorIdx then
    match x, y, h with
    | .select a, .select a', _ =>
      have := Select.decEq a a'
      decidable_of_iff (a = a') (by simp)
    | .wildcard, .wildcard, _ => .isTrue rfl
    | .number a, .number a', _ =>
      decidable_of_iff (a = a') (by simp)
    | .string a, .string a', _ =>
      decidable_of_iff (a = a') (by simp)
    | .boolean a, .boolean a', _ =>
      decidable_of_iff (a = a') (by simp)
    | .null, .null, _ => .isTrue rfl
    | .array a, .array a', _ =>
      have := Expression.decEqList a a'
      decidable_of_iff (a = a') (by simp)
    | .name a, .name a', _ =>
      decidable_of_iff (a = a') (by simp)
    | .call a b, .call a' b', _ =>
      have := Expression.decEqList b b'
      decidable_of_iff (a = a' ∧ b = b') (by simp)
    | .grouped a, .grouped a', _ =>
      have := Expression.decEq a a'
      decidable_of_iff (a = a') (by simp)
  else .isFalse (by rintro rfl; exact h rfl)
termination_by structural x

def Select.decEq : (x y : Select) → Decidable (x = y)
  | .mk a b c d e f g h, .mk a' b' c' d' e' f' g' h' =>
    have := Term.decEqOption a a'
    have := Projection.decEq c c'
    have := TableExpression.decEqList d d'
    have := Expression.decEqOption e e'
    have := Expression.decEqOption f f'
    have := Expression.decEqOption g g'
    have := Expression.decEqOption h h'
    decidable_of_iff
      (a = a' ∧ b = b' ∧ c = c' ∧ d = d' ∧ e = e' ∧ f = f' ∧ g = g' ∧ h = h') (by simp)
termination_by structural x => x

def Projection.decEq (x y : Projection) : Decidable (x = y) :=
  if h : x.ctorIdx = y.ctorIdx then
    match x, y, h with
    | .all, .all, _ => .isTrue rfl
    | .items a, .items a', _ =>
      have := AliasedExpression.decEqList a a'
      decidable_of_iff (a = a') (by simp)
  else .isFalse (by rintro rfl; exact h rfl)
termination_by structural x

def AliasedExpression.decEq : (x y : AliasedExpression) → Decidable (x = y)
  | .mk a b, .mk a' b' =>
    have := Expression.decEq a a'
    decidable_of_iff (a = a' ∧ b = b') (by simp)
termination_by structural x => x

def TableExpression.decEq : (x y : TableExpression) → Decidable (x = y)
  | .mk a b, .mk a' b' =>
    have := TableSource.decEq a a'
    decidable_of_iff (a = a' ∧ b = b') (by simp)
termination_by structural x => x

def TableSource.decEq (x y : TableSource) : Decidable (x = y) :=
  if h : x.ctorIdx = y.ctorIdx then
    match x, y, h with
    | .values a, .values a', _ =>
      have := Expression.decEqList a a'
      decidable_of_iff (a = a') (by simp)
    | .subquery a, .subquery a', _ =>
      have := Select.decEq a a'
      decidable_of_iff (a = a') (by simp)
    | .table a, .table a', _ =>
      decidable_of_iff (a = a') (by simp)
  else .isFalse (by rintro rfl; exact h rfl)
termination_by structural x

def Conjunction.decEqList : (x y : List Conjunction) → Decidable (x = y)
  | [], [] => .isTrue rfl
  | [], _ :: _ => .isFalse (by simp)
  | _ :: _, [] => .isFalse (by simp)
  | a :: b, a' :: b' =>
    have := Conjunction.decEq a a'
    have := Conjunction.decEqList b b'
    decidable_of_iff (a = a' ∧ b = b') (by simp)
termination_by structural x => x

def Condition.decEqList : (x y : List Condition) → Decidable (x = y)
  | [], [] => .isTrue rfl
  | [], _ :: _ => .isFalse (by simp)
  | _ :: _, [] => .isFalse (by simp)
  | a :: b, a' :: b' =>
    have := Condition.decEq a a'
    have := Condition.decEqList b b'
    decidable_of_iff (a = a' ∧ b = b') (by simp)
termination_by structural x => x

def Expression.decEqList : (x y : List Expression) → Decidable (x = y)
  | [], [] => .isTrue rfl
  | [], _ :: _ => .isFalse (by simp)
  | _ :: _, [] => .isFalse (by simp)
  | a :: b, a' :: b' =>
    have := Expression.decEq a a'
    have := Expression.decEqList b b'
    decidable_of_iff (a = a' ∧ b = b') (by simp)
termination_by structural x => x

def Summand.decEqList : (x y : List Summand) → Decidable (x = y)
  | [], [] => .isTrue rfl
  | [], _ :: _ => .isFalse (by simp)
  | _ :: _, [] => .isFalse (by simp)
  | a :: b, a' :: b' =>
    have := Summand.decEq a a'
    have := Summand.decEqList b b'
    decidable_of_iff (a = a' ∧ b = b') (by simp)
termination_by structural x => x

def Addend.decEqList : (x y : List Addend) → Decidable (x = y)
  | [], [] => .isTrue rfl
  | [], _ :: _ => .isFalse (by simp)
  | _ :: _, [] => .isFalse (by simp)
  | a :: b, a' :: b' =>
    have := Addend.decEq a a'
    have := Addend.decEqList b b'
    decidable_of_iff (a = a' ∧ b = b') (by simp)
termination_by structural x => x

def Multiplier.decEqList : (x y : List Multiplier) → Decidable (x = y)
  | [], [] => .isTrue rfl
  | [], _ :: _ => .isFalse (by simp)
  | _ :: _, [] => .isFalse (by simp)
  | a :: b, a' :: b' =>
    have := Multiplier.decEq a a'
    have := Multiplier.decEqList b b'
    decidable_of_iff (a = a' ∧ b = b') (by simp)
termination_by structural x => x

def TableExpression.decEqList : (x y : List TableExpression) → Decidable (x = y)
  | [], [] => .isTrue rfl
  | [], _ :: _ => .isFalse (by simp)
  | _ :: _, [] => .isFalse (by simp)
  | a :: b, a' :: b' =>
    have := TableExpression.decEq a a'
    have := TableExpression.decEqList b b'
    decidable_of_iff (a = a' ∧ b = b') (by simp)
termination_by structural x => x

def AliasedExpression.decEqList : (x y : List AliasedExpression) → Decidable (x = y)
  | [], [] => .isTrue rfl
  | [], _ :: _ => .isFalse (by simp)
  | _ :: _, [] => .isFalse (by simp)
  | a :: b, a' :: b' =>
    have := AliasedExpression.decEq a a'
    have := AliasedExpression.decEqList b b'
    decidable_of_iff (a = a' ∧ b = b') (by simp)
termination_by structural x => x

def Predicate.decEqOption : (x y : Option Predicate) → Decidable (x = y)
  | none, none => .isTrue rfl
  | none, some _ => .isFalse (by simp)
  | some _, none => .isFalse (by simp)
  | some a, some a' =>
    have := Predicate.decEq a a'
    decidable_of_iff (a = a') (by simp)
termination_by structural x => x

def Term.decEqOption : (x y : Option Term) → Decidable (x = y)
  | none, none => .isTrue rfl
  | none, some _ => .isFalse (by simp)
  | some _, none => .isFalse (by simp)
  | some a, some a' =>
    have := Term.decEq a a'
    decidable_of_iff (a = a') (by simp)
termination_by structural x => x

def Expression.decEqOption : (x y : Option Expression) → Decidable (x = y)
  | none, none => .isTrue rfl
  | none, some _ => .isFalse (by simp)
  | some _, none => .isFalse (by simp)
  | some a, some a' =>
    have := Expression.decEq a a'
    decidable_of_iff (a = a') (by simp)
termination_by structural x => x

end

instance : DecidableEq Expression := Expression.decEq

instance : DecidableEq Conjunction := Conjunction.decEq

instance : DecidableEq Condition := Condition.decEq

instance : DecidableEq Predicate := Predicate.decEq

instance : DecidableEq Comparand := Comparand.decEq

instance : DecidableEq Operand := Operand.decEq

instance : DecidableEq Summand := Summand.decEq

instance : DecidableEq Addend := Addend.decEq

instance : DecidableEq Factor := Factor.decEq

instance : DecidableEq Multiplier := Multiplier.decEq

instance : DecidableEq Term := Term.decEq

instance : DecidableEq Select := Select.decEq

instance : DecidableEq Projection := Projection.decEq

instance : DecidableEq AliasedExpression := AliasedExpression.decEq

instance : DecidableEq TableExpression := TableExpression.decEq

instance : DecidableEq TableSource := TableSource.decEq

end TableDdl
