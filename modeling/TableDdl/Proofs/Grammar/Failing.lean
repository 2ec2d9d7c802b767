import TableDdl.Proofs.Grammar.First

/-!
# Early failures of compound rules

How a failure at one of the next `k` tokens, where `k` is at most one, comes from failures of the
parts. Options and repetitions never fail so early: they match instead.
-/
namespace TableDdl

variable {α β : Type}

namespace Rule

variable {calls k : Nat} {r : DdlRule α} {s : DdlRule β} {c : Cursor}

/-- The rule fails at most `k` tokens past the start. -/
def FailsIn (calls k : Nat) (r : DdlRule α) (c : Cursor) : Prop :=
  ∃ f, r.read calls c = .failed f ∧ f.pos ≤ c.pos + k

theorem failsIn_map (f : α → β) : (Rule.map f r).FailsIn calls k c ↔ r.FailsIn calls k c := by
  simp only [FailsIn, read_map, Outcome.map_eq_failed_iff]

theorem failsIn_both : (Rule.both r s).FailsIn calls k c ↔
    r.FailsIn calls k c ∨ ∃ x mid, r.read calls c = .matched x mid ∧
      ∃ f, s.read calls mid = .failed f ∧ f.pos ≤ c.pos + k := by
  simp only [FailsIn, read_both]
  cases first : r.read calls c with
  | matched x next =>
    simp only [Outcome.handle_matched, Outcome.map_eq_failed_iff]
    constructor
    · exact fun fails => .inr ⟨x, next, rfl, fails⟩
    · rintro (⟨f, failed, -⟩ | ⟨_, _, same, fails⟩)
      · cases failed
      · cases same
        exact fails
  | failed f => simp
  | diverged => simp

theorem failsIn_either {s : DdlRule α} (bound : k ≤ 1) :
    (Rule.either r s).FailsIn calls k c ↔ r.FailsIn calls k c ∧ s.FailsIn calls k c := by
  simp only [FailsIn, read_either]
  cases first : r.read calls c with
  | matched x next => simp
  | diverged => simp
  | failed f =>
    simp only [Outcome.handle_failed, Outcome.failed.injEq, exists_eq_left']
    by_cases late : c.pos + 1 < f.pos
    · simp only [late, if_true, Outcome.failed.injEq, exists_eq_left']
      constructor
      · intro near
        omega
      · rintro ⟨near, -⟩
        omega
    · simp only [late, if_false]
      cases second : s.read calls c with
      | matched x next => simp
      | diverged => simp
      | failed g =>
        simp only [Outcome.handle_failed, Outcome.failed.injEq, exists_eq_left']
        by_cases later : c.pos + 1 < g.pos
        · simp only [later, if_true]
          omega
        · simp only [later, if_false, Failure.deeper_pos]
          omega

theorem not_failsIn_optional (bound : k ≤ 1) : ¬ r.optional.FailsIn calls k c := by
  rintro ⟨f, failed, near⟩
  rw [read_optional] at failed
  cases first : r.read calls c with
  | matched x next => simp [first] at failed
  | diverged => simp [first] at failed
  | failed g =>
    simp only [first, Outcome.handle_failed] at failed
    split at failed
    · simp only [Outcome.failed.injEq] at failed
      subst failed
      omega
    · cases failed

theorem lt_of_many_failed {f : Failure} (h : r.many.read calls c = .failed f) :
    c.pos + 1 < f.pos :=
  repeats_many.late (forward_read calls r) nofun h

theorem lt_of_followers_failed {f : Failure} (h : followers calls r c = .failed f) :
    c.pos + 1 < f.pos :=
  repeats_followers.late (forward_read calls r) nofun h

theorem not_failsIn_many (bound : k ≤ 1) : ¬ r.many.FailsIn calls k c := by
  rintro ⟨f, failed, near⟩
  have := lt_of_many_failed failed
  omega

theorem failsIn_sepBy1 (bound : k ≤ 1) :
    (r.sepBy1 s).FailsIn calls k c ↔ r.FailsIn calls k c := by
  constructor
  · rintro ⟨f, failed, near⟩
    rw [read_sepBy1] at failed
    cases first : r.read calls c with
    | matched x next =>
      simp only [first, Outcome.handle_matched, Outcome.map_eq_failed_iff] at failed
      have := lt_of_followers_failed failed
      have := (reaches_of_read first).le
      omega
    | diverged => simp [first] at failed
    | failed g =>
      simp only [first, Outcome.handle_failed, Outcome.failed.injEq] at failed
      subst failed
      exact ⟨g, first, near⟩
  · rintro ⟨f, failed, near⟩
    exact ⟨f, by rw [read_sepBy1, failed]; rfl, near⟩

theorem failsIn_nested : r.nested.FailsIn calls k c ↔
    32 ≤ c.depth ∨ c.depth < 32 ∧ r.FailsIn calls k { c with depth := c.depth + 1 } := by
  simp only [FailsIn, read_nested]
  by_cases deep : 32 ≤ c.depth
  · simp [deep]
  · simp only [deep, if_false, false_or, Nat.not_le.1 deep, true_and]
    cases r.read calls { c with depth := c.depth + 1 } <;> simp

end Rule
end TableDdl
