/-!
# Failures

A failure is the index of a token and what was expected there instead. Of two failures the
deeper one counts; at the same token their expectations are joined in order, each once.
-/
namespace TableDdl

inductive Expected
  /-- A word or operator. -/
  | literal (text : String)
  /-- A class of tokens. -/
  | tokenClass (name : String)
  /-- The token was of the right class and its value was refused. -/
  | invalid (reason : String)
  | endOfInput
deriving DecidableEq

def Expected.text : Expected → String
  | .literal text => "'" ++ text ++ "'"
  | .tokenClass name => name
  | .invalid reason => reason
  | .endOfInput => "end of input"

/-- The members of `items` in order, after those of `seen`, each once. -/
def appendNew {α : Type} [DecidableEq α] (seen : List α) (items : List α) : List α :=
  items.foldl (fun seen x => if x ∈ seen then seen else seen ++ [x]) seen

structure Failure where
  pos : Nat
  expected : List Expected
deriving DecidableEq

namespace Failure

def deeper (f g : Failure) : Failure :=
  if f.pos < g.pos then g
  else if g.pos < f.pos then f
  else ⟨f.pos, appendNew f.expected g.expected⟩

/-- The failure that counts after `f`, where `furthest` counted before. -/
def furthest (seen : Option Failure) (f : Failure) : Option Failure :=
  match seen with
  | none => some f
  | some g => some (g.deeper f)

theorem deeper_pos (f g : Failure) : (f.deeper g).pos = max f.pos g.pos := by
  simp only [deeper]
  split
  · omega
  · split
    · omega
    · simp only; omega

end Failure

theorem mem_appendNew {α : Type} [DecidableEq α] {x : α} {seen items : List α} :
    x ∈ appendNew seen items ↔ x ∈ seen ∨ x ∈ items := by
  induction items generalizing seen with
  | nil => simp [appendNew]
  | cons y items ih =>
    have step : appendNew seen (y :: items)
        = appendNew (if y ∈ seen then seen else seen ++ [y]) items := rfl
    rw [step, ih]
    split <;> simp_all
    all_goals grind

end TableDdl
