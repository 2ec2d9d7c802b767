import TableDdl.Proofs.Grammar.Related
import TableDdl.Proofs.Grammar.Terminals

/-!
# Tokens that no terminal tells apart

Two engines that differ in their keyword tables alone run side by side on two token lists. Where
no terminal tells a token of the first list from the one in its place in the second, the engines
do the same at every step: they give equal values, equal failures and equal notes.
-/
namespace TableDdl

variable {N : Type → Type} {σ α β : Type}

/-- The same outcome, up to the tokens that are left. -/
inductive Outcome.Mirrors (R : Token → Token → Prop) : Outcome α → Outcome α → Prop
  | matched (x : α) {next next' : Cursor} (h : next.Paired R next') :
      Mirrors R (.matched x next) (.matched x next')
  | failed (f : Failure) : Mirrors R (.failed f) (.failed f)
  | diverged : Mirrors R .diverged .diverged

namespace Engine

variable {R : Token → Token → Prop}

/-- Answers with mirrored outcomes and the same notes. -/
def MirrorsAnswer (R : Token → Token → Prop) (answer answer' : Outcome α × σ) : Prop :=
  answer.1.Mirrors R answer'.1 ∧ answer'.2 = answer.2

/-- At every place the second attempt mirrors the first. -/
def MirrorsAttempt (R : Token → Token → Prop) (a a' : Attempt σ α) : Prop :=
  ∀ ⦃c c' notes⦄, c.Paired R c' → MirrorsAnswer R (a c notes) (a' c' notes)

theorem mirrorsAttempt_of_related {a a' : Attempt σ α} (h : RelatedAttempt R Eq a a') :
    MirrorsAttempt R a a' := by
  have mirrors {o o' : Outcome α} (h : o.Related R Eq o') : o.Mirrors R o' := by
    cases h with
    | matched same h => exact same ▸ .matched _ h
    | failed f => exact .failed f
    | diverged => exact .diverged
  exact fun _ _ _ paired => ⟨mirrors (h paired).1, (h paired).2⟩

/-- Only the terminals that the rules use have to take the tokens alike. -/
theorem same_relation (e : Engine σ) (keywords : Keywords) (grammar : ∀ {β : Type}, N β → Rule N β)
    {kind : Terminal → Bool} (named : ∀ {β : Type} (name : N β), (grammar name).uses kind = true)
    (same : ∀ u u', R u u' → ∀ t : Terminal, kind t = true →
      t.accept keywords u' = t.accept e.keywords u) :
    RunRelation e (e.under keywords) grammar fun r a a' =>
      r.uses kind = true → RelatedAttempt R Eq a a' where
  token t own := .token_same fun u u' h => same u u' h t own
  atEnd _ := .atEnd
  unanswered _ _ := .unanswered
  call {_ name _ _} ha _ := ha (named name)
  map f ha own := (ha own).map_same f
  convert f ha own := (ha own).convert f
  both ha hb own :=
    let ⟨left, right⟩ := Bool.and_eq_true_iff.1 own
    (ha left).both_same (hb right)
  either ha hb own :=
    let ⟨left, right⟩ := Bool.and_eq_true_iff.1 own
    (ha left).either (hb right)
  optional ha own := (ha own).optional_same
  many ha own := (ha own).many_same
  sepBy1 ha hb own :=
    let ⟨left, right⟩ := Bool.and_eq_true_iff.1 own
    (ha left).sepBy1_same (hb right)
  nested ha own := (ha own).nested

/-- Runs on tokens that no terminal of the rules tells apart end in the same way. -/
theorem mirrors_run_of_uses {e : Engine σ} {keywords : Keywords}
    (grammar : ∀ {β : Type}, N β → Rule N β) {kind : Terminal → Bool}
    (named : ∀ {β : Type} (name : N β), (grammar name).uses kind = true)
    (same : ∀ u u', R u u' → ∀ t : Terminal, kind t = true →
      t.accept keywords u' = t.accept e.keywords u)
    (calls : Nat) {r : Rule N α} (own : r.uses kind = true) :
    MirrorsAttempt R (e.run grammar calls r) ((e.under keywords).run grammar calls r) :=
  mirrorsAttempt_of_related ((same_relation e keywords grammar named same).run calls r own)

/-- Runs on tokens that no terminal tells apart end in the same way. -/
theorem mirrors_run {e : Engine σ} {keywords : Keywords}
    (same : ∀ u u', R u u' → ∀ t : Terminal, t.accept keywords u' = t.accept e.keywords u)
    (grammar : ∀ {β : Type}, N β → Rule N β) (calls : Nat) (r : Rule N α) :
    MirrorsAttempt R (e.run grammar calls r) ((e.under keywords).run grammar calls r) :=
  mirrors_run_of_uses grammar (fun name => Rule.uses_true (grammar name))
    (fun u u' h t _ => same u u' h t) calls (Rule.uses_true r)

end Engine
end TableDdl
