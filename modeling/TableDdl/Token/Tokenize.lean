import TableDdl.Token.Scan

/-!
# Tokenizing

A text is cut into tokens from the left; blanks and comments are dropped. The only thing that a
cut depends on from before is whether the last token ends an operand, because then a sign is an
operator. The loop ends because every cut takes at least one character.
-/
namespace TableDdl

open Scan

/-- The tokens of `cs`, which starts at `p`. -/
def tokensFrom (keywords : Keywords) (signed : Bool) (p : Position) (cs : List Char) :
    Except Error (List Token) :=
  if cs.isEmpty then .ok []
  else match _h : scan keywords signed cs with
    | none => .error (.lexical p (String.ofList (cs.take 20)))
    | some c =>
      match c.kind with
      | none => tokensFrom keywords signed (p.after c.taken) c.rest
      | some kind =>
        let t : Token := ⟨kind, String.ofList c.taken, p⟩
        (tokensFrom keywords (!t.endsOperand keywords) (p.after c.taken) c.rest).map (t :: ·)
termination_by cs.length
decreasing_by all_goals exact length_rest_lt _h

@[simp] theorem tokensFrom_nil (keywords : Keywords) (signed : Bool) (p : Position) :
    tokensFrom keywords signed p [] = .ok [] := by
  rw [tokensFrom]
  rfl

theorem tokensFrom_of_scan_eq_none {keywords : Keywords} {signed : Bool} {p : Position}
    {cs : List Char} (h : scan keywords signed cs = none) (nonempty : cs ≠ []) :
    tokensFrom keywords signed p cs = .error (.lexical p (String.ofList (cs.take 20))) := by
  rw [tokensFrom]
  simp only [List.isEmpty_iff, nonempty, if_false]
  split
  · rfl
  · simp_all

theorem tokensFrom_of_scan_eq_some {keywords : Keywords} {signed : Bool} {p : Position}
    {cs : List Char} {c : Cut} (h : scan keywords signed cs = some c) :
    tokensFrom keywords signed p cs = match c.kind with
      | none => tokensFrom keywords signed (p.after c.taken) c.rest
      | some kind =>
        let t : Token := ⟨kind, String.ofList c.taken, p⟩
        (tokensFrom keywords (!t.endsOperand keywords) (p.after c.taken) c.rest).map (t :: ·) := by
  have nonempty : cs.isEmpty = false := by
    cases cs with
    | nil => exact absurd (length_rest_lt h) (Nat.not_lt_zero _)
    | cons _ _ => rfl
  rw [tokensFrom]
  simp only [nonempty, Bool.false_eq_true, if_false]
  split
  · simp_all
  · rename_i found
    obtain rfl : c = _ := Option.some.inj (h.symm.trans found)
    cases c.kind <;> rfl

def tokenize (keywords : Keywords) (text : String) : Except Error (List Token) :=
  tokensFrom keywords true .start text.toList

end TableDdl
