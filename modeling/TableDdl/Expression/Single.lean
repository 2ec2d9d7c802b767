import TableDdl.Expression.Basic

/-!
# Expressions without operators

A term by itself is an expression. The terms that are read back from such expressions are the
ones they were made of, and no other expression has one.
-/
namespace TableDdl

def Operand.ofTerm (t : Term) : Operand := .concat [.sum (.product t []) []]

def Expression.ofTerm (t : Term) : Expression := .anyOf [.allOf [.test (.ofTerm t) none]]

def Operand.term? : Operand → Option Term
  | .concat [.sum (.product t []) []] => some t
  | _ => none

/-- The term that the expression consists of, where it has no operator at all. -/
def Expression.term? : Expression → Option Term
  | .anyOf [.allOf [.test operand none]] => operand.term?
  | _ => none

theorem Operand.term?_eq_some_iff {o : Operand} {t : Term} :
    o.term? = some t ↔ o = .ofTerm t := by
  constructor
  · intro h
    unfold Operand.term? at h
    split at h
    · simp_all [Operand.ofTerm]
    · simp at h
  · rintro rfl
    rfl

theorem Expression.term?_eq_some_iff {e : Expression} {t : Term} :
    e.term? = some t ↔ e = .ofTerm t := by
  constructor
  · intro h
    unfold Expression.term? at h
    split at h
    · simp [Operand.term?_eq_some_iff.1 h, Expression.ofTerm]
    · simp at h
  · rintro rfl
    rfl

end TableDdl
