import TableDdl.Expression.Grammar
import TableDdl.Proofs.Grammar.Progress

/-!
# Reading with the default table

What a rule of the language reads from a cursor, and how a match of a compound rule comes from
matches of its parts. A failure is early if it lies at most one token past the start; only an
early failure leads to another alternative or ends an option or a repetition.
-/
namespace TableDdl

variable {α β : Type}

/-- The parser's answer for a rule, with at most `calls` named rules inside each other. -/
def Rule.read (calls : Nat) (r : DdlRule α) (c : Cursor) : Outcome α :=
  (Engine.standard Keywords.mysql).answer Nonterminal.rule calls r c

/-- The rule fails at most one token past the start. -/
def Rule.FailsEarly (calls : Nat) (r : DdlRule α) (c : Cursor) : Prop :=
  ∃ f, r.read calls c = .failed f ∧ f.pos ≤ c.pos + 1

namespace Rule

variable {calls : Nat} {r : DdlRule α} {s : DdlRule β} {c next : Cursor}

theorem commits_iff (start : Nat) (f : Failure) :
    (Engine.standard Keywords.mysql).silent.commits start f = true ↔ start + 1 < f.pos := by
  simp [Engine.commits, Engine.silent, Engine.standard]

theorem forward_read (calls : Nat) (r : DdlRule α) :
    Engine.Forward ((Engine.standard Keywords.mysql).silent.run Nonterminal.rule calls r) :=
  Engine.forward_run _ _ _ _

theorem reaches_of_read {x : α} (h : r.read calls c = .matched x next) : c.Reaches next :=
  (forward_read calls r).reaches h

theorem le_of_failed {f : Failure} (h : r.read calls c = .failed f) : c.pos ≤ f.pos :=
  ((forward_read calls r).failure h).1

theorem read_map (f : α → β) : (Rule.map f r).read calls c = (r.read calls c).map f := by
  simp only [read, Engine.answer, Engine.run_map, Engine.fst_map]

theorem read_both : (Rule.both r s).read calls c =
    (r.read calls c).handle (fun x mid => (s.read calls mid).map (x, ·)) .failed := by
  simp only [read, Engine.answer, Engine.run_both, Engine.fst_both]

theorem read_convert (f : α → Except String β) : (Rule.convert f r).read calls c =
    (r.read calls c).handle (fun x next => match f x with
      | .ok y => .matched y next
      | .error reason => .failed ⟨c.pos, [.invalid reason]⟩) .failed := by
  simp only [read, Engine.answer, Engine.run_convert]
  exact Engine.fst_convert _ _ _ _

theorem read_either (s : DdlRule α) : (Rule.either r s).read calls c =
    (r.read calls c).handle .matched fun f =>
      if c.pos + 1 < f.pos then .failed f
      else (s.read calls c).handle .matched fun g =>
        .failed (if c.pos + 1 < g.pos then g else f.deeper g) := by
  simp only [read, Engine.answer, Engine.run_either, Engine.fst_either, commits_iff]

theorem read_optional : (Rule.optional r).read calls c =
    (r.read calls c).handle (fun x next => .matched (some x) next) fun f =>
      if c.pos + 1 < f.pos then .failed f else .matched none c := by
  simp only [read, Engine.answer, Engine.run_optional, Engine.fst_optional, commits_iff]

theorem read_many : (Rule.many r).read calls c =
    (r.read calls c).handle (fun x next =>
      if next.pos = c.pos then .matched [] c else ((Rule.many r).read calls next).map (x :: ·))
      fun f => if c.pos + 1 < f.pos then .failed f else .matched [] c := by
  simp only [read, Engine.answer, Engine.run_many]
  rw [Engine.fst_many (forward_read calls r)]
  simp only [commits_iff]

theorem repeats_many : Repeats (r.read calls) (.matched []) ((Rule.many r).read calls) := fun _ =>
  read_many

theorem read_nested : (Rule.nested r).read calls c =
    if 32 ≤ c.depth then .failed ⟨c.pos, [.invalid "nesting too deep"]⟩
    else (r.read calls { c with depth := c.depth + 1 }).handle
      (fun x next => .matched x { next with depth := c.depth }) .failed := by
  simp only [read, Engine.answer, Engine.run_nested]
  exact Engine.fst_nested _ _ _

theorem map_matched_iff {f : α → β} {y : β} :
    (Rule.map f r).read calls c = .matched y next ↔
      ∃ x, r.read calls c = .matched x next ∧ f x = y := by
  rw [read_map, Outcome.map_eq_matched_iff]

theorem both_matched_iff {x : α} {y : β} :
    (Rule.both r s).read calls c = .matched (x, y) next ↔
      ∃ mid, r.read calls c = .matched x mid ∧ s.read calls mid = .matched y next := by
  rw [read_both]
  cases first : r.read calls c with
  | matched x' mid =>
    simp only [Outcome.handle_matched, Outcome.map_eq_matched_iff, Prod.mk.injEq,
      Outcome.matched.injEq]
    constructor
    · rintro ⟨_, second, rfl, rfl⟩
      exact ⟨mid, ⟨rfl, rfl⟩, second⟩
    · rintro ⟨_, ⟨rfl, rfl⟩, second⟩
      exact ⟨_, second, rfl, rfl⟩
  | failed f => simp
  | diverged => simp

theorem convert_matched_iff {f : α → Except String β} {y : β} :
    (Rule.convert f r).read calls c = .matched y next ↔
      ∃ x, r.read calls c = .matched x next ∧ f x = .ok y := by
  rw [read_convert]
  cases r.read calls c with
  | matched x mid => cases h : f x <;> simp [h, and_comm, and_assoc]
  | failed f => simp
  | diverged => simp

theorem either_matched_iff {s : DdlRule α} {x : α} :
    (Rule.either r s).read calls c = .matched x next ↔
      r.read calls c = .matched x next ∨
        r.FailsEarly calls c ∧ s.read calls c = .matched x next := by
  rw [read_either, FailsEarly]
  cases first : r.read calls c with
  | matched y mid => simp
  | failed f =>
    by_cases late : c.pos + 1 < f.pos
    · simp [late, Nat.not_le.2 late]
    · cases s.read calls c <;> simp [late, Nat.not_lt.1 late]
  | diverged => simp

theorem optional_matched_iff {o : Option α} :
    (Rule.optional r).read calls c = .matched o next ↔
      (∃ x, o = some x ∧ r.read calls c = .matched x next) ∨
        o = none ∧ next = c ∧ r.FailsEarly calls c := by
  rw [read_optional, FailsEarly]
  cases first : r.read calls c with
  | matched y mid => cases o <;> simp [eq_comm]
  | failed f =>
    by_cases late : c.pos + 1 < f.pos
    · simp [late, Nat.not_le.2 late]
    · simp [late, Nat.not_lt.1 late, eq_comm]
  | diverged => simp

theorem nested_matched_iff {x : α} :
    (Rule.nested r).read calls c = .matched x next ↔
      c.depth < 32 ∧ ∃ inner, r.read calls { c with depth := c.depth + 1 } = .matched x inner ∧
        next = { inner with depth := c.depth } := by
  rw [read_nested]
  by_cases deep : 32 ≤ c.depth
  · simp [deep, Nat.not_lt.2 deep]
  · simp only [deep, if_false, Nat.not_le.1 deep, true_and]
    cases r.read calls { c with depth := c.depth + 1 } <;> simp [eq_comm, and_assoc]

theorem seq_matched_iff {r : DdlRule (α → β)} {s : DdlRule α} {y : β} :
    (r <*> s).read calls c = .matched y next ↔
      ∃ f x mid, r.read calls c = .matched f mid ∧ s.read calls mid = .matched x next ∧ f x = y := by
  constructor
  · intro h
    obtain ⟨⟨f, x⟩, matched, rfl⟩ := map_matched_iff.1 h
    obtain ⟨mid, first, second⟩ := both_matched_iff.1 matched
    exact ⟨f, x, mid, first, second, rfl⟩
  · rintro ⟨f, x, mid, first, second, rfl⟩
    exact map_matched_iff.2 ⟨(f, x), both_matched_iff.2 ⟨mid, first, second⟩, rfl⟩

theorem seqLeft_matched_iff {x : α} :
    (r <* s).read calls c = .matched x next ↔
      ∃ y mid, r.read calls c = .matched x mid ∧ s.read calls mid = .matched y next := by
  constructor
  · intro h
    obtain ⟨⟨x, y⟩, matched, rfl⟩ := map_matched_iff.1 h
    obtain ⟨mid, first, second⟩ := both_matched_iff.1 matched
    exact ⟨y, mid, first, second⟩
  · rintro ⟨y, mid, first, second⟩
    exact map_matched_iff.2 ⟨(x, y), both_matched_iff.2 ⟨mid, first, second⟩, rfl⟩

theorem seqRight_matched_iff {y : β} :
    (r *> s).read calls c = .matched y next ↔
      ∃ x mid, r.read calls c = .matched x mid ∧ s.read calls mid = .matched y next := by
  constructor
  · intro h
    obtain ⟨⟨x, y⟩, matched, rfl⟩ := map_matched_iff.1 h
    obtain ⟨mid, first, second⟩ := both_matched_iff.1 matched
    exact ⟨x, mid, first, second⟩
  · rintro ⟨x, mid, first, second⟩
    exact map_matched_iff.2 ⟨(x, y), both_matched_iff.2 ⟨mid, first, second⟩, rfl⟩

/-- One of the alternatives was read. -/
theorem exists_of_read_oneOf {rs : List (DdlRule α)} {x : α}
    (read : (oneOf r rs).read calls c = .matched x next) :
    ∃ s ∈ r :: rs, s.read calls c = .matched x next := by
  induction rs generalizing r with
  | nil => exact ⟨r, List.mem_cons_self, read⟩
  | cons s rs ih =>
    rcases either_matched_iff.1 read with matched | ⟨-, matched⟩
    · exact ⟨r, List.mem_cons_self, matched⟩
    · obtain ⟨t, mem, matched⟩ := ih matched
      exact ⟨t, List.mem_cons_of_mem _ mem, matched⟩

theorem eq_of_optional_none (h : r.optional.read calls c = .matched none next) : next = c := by
  rcases optional_matched_iff.1 h with ⟨_, ⟨⟩, -⟩ | ⟨-, same, -⟩
  exact same

theorem FailsEarly.optional_matched {o : Option α} (early : r.FailsEarly calls c)
    (h : r.optional.read calls c = .matched o next) : o = none ∧ next = c := by
  obtain ⟨f, failed, -⟩ := early
  rcases optional_matched_iff.1 h with ⟨x, -, matched⟩ | ⟨absent, same, -⟩
  · rw [failed] at matched
    cases matched
  · exact ⟨absent, same⟩

theorem eq_of_flag_false (h : r.flag.read calls c = .matched false next) : next = c := by
  obtain ⟨o, matched, off⟩ := map_matched_iff.1 h
  cases o with
  | none => exact eq_of_optional_none matched
  | some x => cases off

/-- All values of the rule have the property. -/
def Yields (r : DdlRule α) (P : α → Prop) : Prop :=
  ∀ calls c x next, r.read calls c = .matched x next → P x

namespace Yields

theorem map {f : α → β} {P : β → Prop} (all : ∀ x, P (f x)) : (f <$> r).Yields P := by
  intro calls c y next read
  obtain ⟨x, -, rfl⟩ := map_matched_iff.1 read
  exact all x

theorem seq {r : DdlRule (α → β)} {s : DdlRule α} {P : β → Prop}
    (h : r.Yields fun f => ∀ x, P (f x)) : (r <*> s).Yields P := by
  intro calls c y next read
  obtain ⟨⟨f, x⟩, matched, rfl⟩ := map_matched_iff.1 read
  obtain ⟨mid, first, -⟩ := both_matched_iff.1 matched
  exact h _ _ _ _ first x

/-- A value without the property is one of the other alternative. -/
theorem read_right {s : DdlRule α} {P : α → Prop} {x : α} (h : r.Yields P) (not : ¬ P x)
    (read : (r <|> s).read calls c = .matched x next) : s.read calls c = .matched x next := by
  rcases either_matched_iff.1 read with matched | ⟨-, matched⟩
  · exact absurd (h _ _ _ _ matched) not
  · exact matched

end Yields

/-- The rounds of a repetition, each of which takes some token, up to an early failure. -/
inductive Rounds (calls : Nat) (r : DdlRule α) : Cursor → List α → Cursor → Prop
  | stop {c : Cursor} : r.FailsEarly calls c → Rounds calls r c [] c
  | round {c mid next : Cursor} {x : α} {xs : List α} : r.read calls c = .matched x mid →
      mid.pos ≠ c.pos → Rounds calls r mid xs next → Rounds calls r c (x :: xs) next

theorem Rounds.le {xs : List α} (h : Rounds calls r c xs next) : c.pos ≤ next.pos := by
  induction h with
  | stop _ => exact Nat.le_refl _
  | round first _ _ ih => exact Nat.le_trans (reaches_of_read first).le ih

theorem Rounds.failsEarly {xs : List α} (h : Rounds calls r c xs next) :
    r.FailsEarly calls next := by
  induction h with
  | stop early => exact early
  | round _ _ _ ih => exact ih

/-- A rule whose matches take some token. -/
def Consumes (calls : Nat) (r : DdlRule α) : Prop :=
  ∀ {c x next}, r.read calls c = .matched x next → next.pos ≠ c.pos

theorem many_of_rounds {xs : List α} (h : Rounds calls r c xs next) :
    (Rule.many r).read calls c = .matched xs next := by
  induction h with
  | stop early =>
    obtain ⟨f, failed, near⟩ := early
    rw [read_many, failed]
    simp [Nat.not_lt.2 near]
  | round first moved _ ih => rw [read_many, first]; simp [moved, ih]

theorem many_matched_iff (consumes : r.Consumes calls) {xs : List α} :
    (Rule.many r).read calls c = .matched xs next ↔ Rounds calls r c xs next := by
  constructor
  · intro h
    induction length : c.rest.length using Nat.strongRecOn generalizing c xs with
    | ind n ih =>
      rw [read_many] at h
      cases first : r.read calls c with
      | matched x mid =>
        have moved := consumes first
        simp only [first, Outcome.handle_matched, moved, if_false,
          Outcome.map_eq_matched_iff] at h
        obtain ⟨xs, rest, rfl⟩ := h
        have shorter := (reaches_of_read first).length_lt moved
        exact .round first moved (ih _ (length ▸ shorter) rest rfl)
      | failed f =>
        simp only [first, Outcome.handle_failed] at h
        split at h
        · simp at h
        · obtain ⟨rfl, rfl⟩ : [] = xs ∧ c = next := by simpa using h
          exact .stop ⟨f, first, by omega⟩
      | diverged => simp [first] at h
  · exact many_of_rounds

/-- What follows the first item of a list. -/
def followers (calls : Nat) (r : DdlRule α) (c : Cursor) : Outcome (List α) :=
  ((Engine.standard Keywords.mysql).silent.followersUpTo
    ((Engine.standard Keywords.mysql).silent.run Nonterminal.rule calls r)
    (c.rest.length + 1) c ()).1

theorem followers_eq : followers calls r c =
    (r.read calls c).handle (fun x next =>
      if next.pos = c.pos then .diverged else (followers calls r next).map (x :: ·))
      fun f => if c.pos + 1 < f.pos then .failed f else .matched [] c := by
  rw [followers, Engine.fst_followers (forward_read calls r)]
  simp only [commits_iff]
  rfl

theorem repeats_followers : Repeats (r.read calls) (fun _ => .diverged) (followers calls r) :=
  fun _ => followers_eq

theorem followers_matched_iff {xs : List α} :
    followers calls r c = .matched xs next ↔ Rounds calls r c xs next := by
  constructor
  · intro h
    -- On what is left, since a round that goes on has taken something.
    induction length : c.rest.length using Nat.strongRecOn generalizing c xs with
    | ind n ih =>
      rw [followers_eq] at h
      cases first : r.read calls c with
      | matched x mid =>
        by_cases same : mid.pos = c.pos
        · simp [first, same] at h
        · simp only [first, Outcome.handle_matched, same, if_false,
            Outcome.map_eq_matched_iff] at h
          obtain ⟨xs, rest, rfl⟩ := h
          have shorter := (reaches_of_read first).length_lt same
          exact .round first same (ih _ (length ▸ shorter) rest rfl)
      | failed f =>
        simp only [first, Outcome.handle_failed] at h
        split at h
        · simp at h
        · obtain ⟨rfl, rfl⟩ : [] = xs ∧ c = next := by simpa using h
          exact .stop ⟨f, first, by omega⟩
      | diverged => simp [first] at h
  · intro h
    induction h with
    | stop early =>
      obtain ⟨f, failed, near⟩ := early
      rw [followers_eq, failed]
      simp [Nat.not_lt.2 near]
    | round first moved _ ih => rw [followers_eq, first]; simp [moved, ih]

theorem read_sepBy1 : (Rule.sepBy1 r s).read calls c =
    (r.read calls c).handle (fun x next => (followers calls (s *> r) next).map (x :: ·))
      .failed := by
  have round : (Engine.standard Keywords.mysql).silent.run Nonterminal.rule calls (s *> r) =
      Engine.map Prod.snd (Engine.both
        ((Engine.standard Keywords.mysql).silent.run Nonterminal.rule calls s)
        ((Engine.standard Keywords.mysql).silent.run Nonterminal.rule calls r)) := by
    rw [← Engine.run_both, ← Engine.run_map]
    rfl
  simp only [read, followers, round, Engine.answer, Engine.run_sepBy1, Engine.fst_sepBy1]

theorem sepBy1_matched_iff {xs : List α} :
    (Rule.sepBy1 r s).read calls c = .matched xs next ↔
      ∃ x mid ys, xs = x :: ys ∧ r.read calls c = .matched x mid ∧
        Rounds calls (s *> r) mid ys next := by
  rw [read_sepBy1]
  cases first : r.read calls c with
  | matched x mid =>
    simp only [Outcome.handle_matched, Outcome.map_eq_matched_iff, followers_matched_iff,
      Outcome.matched.injEq]
    constructor
    · rintro ⟨ys, rounds, rfl⟩
      exact ⟨x, mid, ys, rfl, ⟨rfl, rfl⟩, rounds⟩
    · rintro ⟨_, _, ys, rfl, ⟨rfl, rfl⟩, rounds⟩
      exact ⟨ys, rounds, rfl⟩
  | failed f => simp
  | diverged => simp

end Rule
end TableDdl
