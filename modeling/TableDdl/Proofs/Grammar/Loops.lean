import TableDdl.Proofs.Grammar.Halting

/-!
# Cursors and loops

A run stays within the list of tokens that its cursor stands in, keeps to the depth, and fails
nowhere before its start. Main statement: a repetition has at most as many items as it takes
tokens, whatever its rule, and a list at most one item more; so a repetition ends where its rounds
do, and a list does where moreover the separator takes a token each time.
-/
namespace TableDdl

variable {N : Type → Type} {σ α β : Type} {c next : Cursor} {ts : List Token}

/-- The cursor stands in front of a token of the list, or at its end. -/
structure Cursor.In (ts : List Token) (c : Cursor) : Prop where
  le : c.pos ≤ ts.length
  rest : c.rest = ts.drop c.pos

namespace Cursor.In

theorem end_eq (inside : c.In ts) : c.pos + c.rest.length = ts.length := by
  have := inside.le
  rw [inside.rest, List.length_drop]
  omega

theorem of_reaches (inside : c.In ts) (ahead : c.Reaches next) : next.In ts := by
  have whole := inside.end_eq
  have same := ahead.total
  obtain ⟨taken, split, pos, -⟩ := ahead
  refine ⟨by omega, ?_⟩
  calc next.rest = (taken ++ next.rest).drop taken.length := List.drop_left.symm
    _ = (ts.drop c.pos).drop taken.length := by rw [← split, inside.rest]
    _ = ts.drop next.pos := by rw [List.drop_drop, pos]

end Cursor.In

/-- A match has at most one item for each token that it took. -/
def Outcome.Counts (o : Outcome (List α)) (c : Cursor) : Prop :=
  ∀ xs next, o = .matched xs next → c.pos + xs.length ≤ next.pos

namespace Outcome.Counts

theorem stop (c : Cursor) : (Outcome.matched ([] : List α) c).Counts c := by
  rintro _ _ ⟨⟩
  exact Nat.le_refl _

theorem failed (f : Failure) : (Outcome.failed f : Outcome (List α)).Counts c := nofun

theorem diverged : (Outcome.diverged : Outcome (List α)).Counts c := nofun

theorem cons {o : Outcome (List α)} (x : α) (moved : c.pos < next.pos) (h : o.Counts next) :
    (o.map (x :: ·)).Counts c := by
  intro xs last matched
  obtain ⟨ys, later, rfl⟩ := map_eq_matched_iff.1 matched
  have := h ys last later
  rw [List.length_cons]
  omega

theorem handle {o : Outcome β} {k : β → Cursor → Outcome (List α)}
    {r : Failure → Outcome (List α)} (matched : ∀ x next, o = .matched x next → (k x next).Counts c)
    (failed : ∀ f, (r f).Counts c) : (o.handle k r).Counts c := by
  cases o with
  | matched x next => exact matched x next rfl
  | failed f => exact failed f
  | diverged => exact .diverged

end Outcome.Counts

namespace Engine

section Items

variable {e : Engine Unit} {a : Attempt Unit α} {b : Attempt Unit β}

/-- A round that takes no token adds no item. -/
theorem manyUpTo_counts (ha : Forward a) (bound : Nat) :
    (e.manyUpTo a bound c ()).1.Counts c := by
  induction bound generalizing c with
  | zero => exact .diverged
  | succ bound ih =>
    rw [fst_manyUpTo_succ]
    refine .handle (fun x mid first => ?_) fun f => ?_
    · have le := (ha.reaches first).le
      split
      · exact .stop c
      · exact .cons x (by omega) ih
    · split
      · exact .failed f
      · exact .stop c

theorem followersUpTo_counts (ha : Forward a) (bound : Nat) :
    (e.followersUpTo a bound c ()).1.Counts c := by
  induction bound generalizing c with
  | zero => exact .diverged
  | succ bound ih =>
    rw [fst_followersUpTo_succ]
    refine .handle (fun x mid first => ?_) fun f => ?_
    · have le := (ha.reaches first).le
      split
      · exact .diverged
      · exact .cons x (by omega) ih
    · split
      · exact .failed f
      · exact .stop c

theorem sepBy1_length (ha : Forward a) (hb : Forward b) {xs : List α}
    (h : (e.sepBy1 a b c ()).1 = .matched xs next) : c.pos + xs.length ≤ next.pos + 1 := by
  rw [fst_sepBy1] at h
  cases first : (a c ()).1 with
  | matched x mid =>
    have le := (ha.reaches first).le
    rw [first, Outcome.handle_matched] at h
    obtain ⟨ys, later, rfl⟩ := Outcome.map_eq_matched_iff.1 h
    have := followersUpTo_counts ((hb.both ha).map Prod.snd) _ ys next later
    rw [List.length_cons]
    omega
  | failed f =>
    rw [first] at h
    cases h
  | diverged =>
    rw [first] at h
    cases h

/-- A round of a list takes a token if its separator does. -/
theorem round_moves (ha : Forward a) {x : α}
    (takes : ∀ {mid : Cursor} {y : β}, (b c ()).1 = .matched y mid → c.pos < mid.pos)
    (round : (map Prod.snd (both b a) c ()).1 = .matched x next) : next.pos ≠ c.pos := by
  rw [fst_map, fst_both] at round
  obtain ⟨_, pair, -⟩ := Outcome.map_eq_matched_iff.1 round
  cases first : (b c ()).1 with
  | matched z mid =>
    have moved := takes first
    rw [first, Outcome.handle_matched] at pair
    obtain ⟨_, item, -⟩ := Outcome.map_eq_matched_iff.1 pair
    have := (ha.reaches item).le
    omega
  | failed f =>
    rw [first] at pair
    cases pair
  | diverged =>
    rw [first] at pair
    cases pair

end Items

section Runs

variable (e : Engine σ) (grammar : ∀ {β : Type}, N β → Rule N β) (calls : Nat)

/-- The rule comes to an end wherever a loop from `c` may try it. -/
def EndsFrom (r : Rule N α) (c : Cursor) : Prop :=
  ∀ c' notes, c.Reaches c' → (e.run grammar calls r c' notes).1 ≠ .diverged

/-- The rule takes a token wherever it matches in a loop from `c`. -/
def TakesFrom (r : Rule N α) (c : Cursor) : Prop :=
  ∀ c' notes y mid, c.Reaches c' → (e.run grammar calls r c' notes).1 = .matched y mid →
    c'.pos < mid.pos

variable {e grammar calls} in
/-- A separator that is a single token takes it. -/
theorem takesFrom_token {t : Terminal} : e.TakesFrom grammar calls (.token t) c := by
  intro c' notes y mid _ matched
  rw [run_token, token] at matched
  split at matched
  · cases matched
  · split at matched
    · cases matched
      exact Nat.lt_succ_self _
    · cases matched

variable {e grammar calls} in
theorem endsFrom_token {t : Terminal} : e.EndsFrom grammar calls (.token t) c := by
  intro c' notes _
  rw [run_token, token]
  split
  · exact Outcome.failed_ne_diverged
  · split
    · exact Outcome.matched_ne_diverged
    · exact Outcome.failed_ne_diverged

/-- Every run stays within the tokens, at its depth and not before its start; a repetition has at
most one item for each token, a list one more, and either ends where its rounds do. -/
theorem run_inside (inside : c.In ts) (notes : σ) :
    (∀ (α : Type) (r : Rule N α),
      (∀ x next, (e.run grammar calls r c notes).1 = .matched x next →
        next.In ts ∧ c.pos ≤ next.pos ∧ next.depth = c.depth) ∧
      ∀ f, (e.run grammar calls r c notes).1 = .failed f → c.pos ≤ f.pos ∧ f.pos ≤ ts.length) ∧
    (∀ (α : Type) (r : Rule N α),
      (∀ xs next, (e.run grammar calls r.many c notes).1 = .matched xs next →
        c.pos + xs.length ≤ next.pos) ∧
      (e.EndsFrom grammar calls r c → (e.run grammar calls r.many c notes).1 ≠ .diverged)) ∧
    ∀ (α β : Type) (item : Rule N α) (separator : Rule N β),
      e.TakesFrom grammar calls separator c →
      (∀ xs next, (e.run grammar calls (item.sepBy1 separator) c notes).1 = .matched xs next →
        c.pos + xs.length ≤ next.pos + 1) ∧
      (e.EndsFrom grammar calls item c → e.EndsFrom grammar calls separator c →
        (e.run grammar calls (item.sepBy1 separator) c notes).1 ≠ .diverged) := by
  have forward {α : Type} (r : Rule N α) : Forward (e.silent.run grammar calls r) :=
    forward_run e.silent grammar calls r
  have quiet {α : Type} (r : Rule N α) (c' : Cursor) :
      (e.run grammar calls r c' notes).1 = (e.silent.run grammar calls r c' ()).1 :=
    run_fst e grammar calls r c' notes
  -- Answers do not depend on the notes, so everything is shown of the engine without them.
  refine ⟨fun α r => ⟨fun x next matched => ?_, fun f failed => ?_⟩,
    fun α r => ⟨fun xs next matched => ?_, fun ends => ?_⟩,
    fun α β item separator takes => ⟨fun xs next matched => ?_, fun items separators => ?_⟩⟩
  · have ahead := (forward r).reaches ((quiet r c).symm.trans matched)
    exact ⟨inside.of_reaches ahead, ahead.le, ahead.depth⟩
  · rw [← inside.end_eq]
    exact (forward r).failure ((quiet r c).symm.trans failed)
  · rw [quiet, run_many] at matched
    exact manyUpTo_counts (forward r) _ xs next matched
  · rw [quiet, run_many]
    exact many_ne_diverged (forward r) fun ahead => quiet r _ ▸ ends _ notes ahead
  · rw [quiet, run_sepBy1] at matched
    exact sepBy1_length (forward item) (forward separator) matched
  · rw [quiet, run_sepBy1]
    exact sepBy1_ne_diverged (forward item) (forward separator)
      (fun ahead => round_moves (forward item) fun matched =>
        takes _ notes _ _ ahead ((quiet separator _).trans matched))
      (fun ahead => quiet item _ ▸ items _ notes ahead)
      fun ahead => quiet separator _ ▸ separators _ notes ahead

end Runs

/-- A list stops in front of a comma that nothing follows, and a repetition of an option stops
where the option takes no token. -/
theorem run_inside_comma :
    let ts : List Token := [⟨.identifier, "a", .start⟩, ⟨.operator, ",", ⟨1, 1, 2⟩⟩]
    let c : Cursor := ⟨0, ts, 7⟩
    let e := Engine.standard .mysql
    let names : ∀ {β : Type}, (fun _ => Empty) β → Rule (fun _ => Empty) β := fun name => nomatch name
    let run {α : Type} (r : Rule (fun _ => Empty) α) := e.run names 0 r c none
    let list : Rule (fun _ => Empty) (List String) := Grammar.commaList Grammar.identifier
    c.In ts ∧
    (run Grammar.identifier.optional.many).1 = .matched [some "a"] ⟨1, ts.drop 1, 7⟩ ∧
    (∀ xs next, (run Grammar.identifier.optional.many).1 = .matched xs next →
      c.pos + xs.length ≤ next.pos) ∧
    (run list).1 = .matched ["a"] ⟨1, ts.drop 1, 7⟩ ∧ (run list).1 ≠ .diverged ∧
    (run (list <* .atEnd)).1 = .failed ⟨1, [.endOfInput]⟩ ∧ 1 ≤ ts.length := by
  intro ts c e names run list
  have inside : c.In ts := ⟨Nat.zero_le _, rfl⟩
  obtain ⟨runs, repetitions, lists⟩ := run_inside e names 0 inside none
  have failed : (run (list <* .atEnd)).1 = .failed ⟨1, [.endOfInput]⟩ := rfl
  exact ⟨inside, rfl, (repetitions _ _).1, rfl,
    (lists _ _ _ _ takesFrom_token).2 endsFrom_token endsFrom_token, failed,
    ((runs _ _).2 _ failed).2⟩

end Engine
end TableDdl
