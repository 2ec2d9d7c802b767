import Mathlib.Data.List.Forall2
import Mathlib.Data.Option.Basic
import TableDdl.Proofs.Grammar.Notes

/-!
# Runs on related tokens

Two engines that differ in their keyword tables alone run side by side on two token lists. They
fail in the same way and with the same notes, or they both match and a relation holds between the
values. Main statement: every combinator keeps this, with the relation that its values have.
-/
namespace TableDdl

variable {N : Type → Type} {σ α β : Type}

/-- The same place before token lists that are related token by token. -/
structure Cursor.Paired (R : Token → Token → Prop) (c c' : Cursor) : Prop where
  pos : c'.pos = c.pos
  depth : c'.depth = c.depth
  rest : List.Forall₂ R c.rest c'.rest

/-- The same failure, or two matches with related values at the same place. -/
inductive Outcome.Related (R : Token → Token → Prop) (S : α → α → Prop) :
    Outcome α → Outcome α → Prop
  | matched {x x' : α} (value : S x x') {next next' : Cursor} (h : next.Paired R next') :
      Related R S (.matched x next) (.matched x' next')
  | failed (f : Failure) : Related R S (.failed f) (.failed f)
  | diverged : Related R S .diverged .diverged

theorem Outcome.Related.mono {R : Token → Token → Prop} {S S' : α → α → Prop} {o o' : Outcome α}
    (h : o.Related R S o') (weaker : ∀ x x', S x x' → S' x x') : o.Related R S' o' := by
  cases h with
  | matched value h => exact .matched (weaker _ _ value) h
  | failed f => exact .failed f
  | diverged => exact .diverged

namespace Engine

variable {R : Token → Token → Prop}

/-- The engine with another keyword table. -/
def under (e : Engine σ) (keywords : Keywords) : Engine σ := { e with keywords := keywords }

@[simp] theorem maxDepth_under (e : Engine σ) (keywords : Keywords) :
    (e.under keywords).maxDepth = e.maxDepth := rfl

@[simp] theorem commits_under (e : Engine σ) (keywords : Keywords) :
    (e.under keywords).commits = e.commits := rfl

/-- Answers with related outcomes and the same notes. -/
def RelatedAnswer (R : Token → Token → Prop) (S : α → α → Prop) (answer answer' : Outcome α × σ) :
    Prop :=
  answer.1.Related R S answer'.1 ∧ answer'.2 = answer.2

/-- At every place the answer of the second attempt is related to that of the first. -/
def RelatedAttempt (R : Token → Token → Prop) (S : α → α → Prop) (a a' : Attempt σ α) : Prop :=
  ∀ ⦃c c' notes⦄, c.Paired R c' → RelatedAnswer R S (a c notes) (a' c' notes)

namespace RelatedAnswer

variable {S : α → α → Prop} {T : β → β → Prop}

theorem matched {x x' : α} (value : S x x') {next next' : Cursor} (notes : σ)
    (h : next.Paired R next') :
    RelatedAnswer R S (.matched x next, notes) (.matched x' next', notes) := ⟨.matched value h, rfl⟩

theorem failed (f : Failure) (notes : σ) :
    RelatedAnswer R S ((.failed f, notes) : Outcome α × σ) (.failed f, notes) := ⟨.failed f, rfl⟩

theorem diverged (notes : σ) :
    RelatedAnswer R S ((.diverged, notes) : Outcome α × σ) (.diverged, notes) := ⟨.diverged, rfl⟩

/-- What comes after related answers is related where each way on is. -/
theorem follow {answer answer' : Outcome α × σ} {k k' : α → Cursor → σ → Outcome β × σ}
    {r r' : Failure → σ → Outcome β × σ} (h : RelatedAnswer R S answer answer')
    (matched : ∀ x x' next next' notes, S x x' → next.Paired R next' →
      RelatedAnswer R T (k x next notes) (k' x' next' notes))
    (failed : ∀ f notes, RelatedAnswer R T (r f notes) (r' f notes)) :
    RelatedAnswer R T (Engine.follow answer k r) (Engine.follow answer' k' r') := by
  obtain ⟨o, notes⟩ := answer
  obtain ⟨o', notes'⟩ := answer'
  obtain ⟨outcome, rfl⟩ := h
  cases outcome with
  | matched value h => exact matched _ _ _ _ _ value h
  | failed f => exact failed f _
  | diverged => exact diverged _

theorem fail (e : Engine σ) (keywords : Keywords) (expected : Expected) {c c' : Cursor}
    (h : c.Paired R c') (notes : σ) :
    RelatedAnswer R S (e.fail expected c notes) ((e.under keywords).fail expected c' notes) := by
  simp only [Engine.fail, h.pos]
  exact failed _ _

end RelatedAnswer

namespace RelatedAttempt

variable {e : Engine σ} {keywords : Keywords} {S S' : α → α → Prop} {T : β → β → Prop}
  {a a' : Attempt σ α} {b b' : Attempt σ β}

theorem mono (ha : RelatedAttempt R S a a') (weaker : ∀ x x', S x x' → S' x x') :
    RelatedAttempt R S' a a' :=
  fun _ _ _ h => ⟨(ha h).1.mono weaker, (ha h).2⟩

theorem unanswered : RelatedAttempt R S (fun _ (notes : σ) => (.diverged, notes))
    fun _ notes => (.diverged, notes) :=
  fun _ _ notes _ => .diverged notes

theorem token {t : Terminal} {S : String → String → Prop}
    (same : ∀ u u', R u u' →
      Option.Rel S (t.accept e.keywords u) (t.accept keywords u')) :
    RelatedAttempt R S (e.token t) ((e.under keywords).token t) := by
  rintro ⟨pos, rest, depth⟩ ⟨pos', rest', depth'⟩ notes h
  have fails := RelatedAnswer.fail (S := S) e keywords t.expected h notes
  obtain ⟨rfl, rfl, rests⟩ := h
  cases rests with
  | nil => exact fails
  | @cons u u' us us' first later =>
    have answers := same u u' first
    simp only [Engine.token, under]
    revert answers
    cases t.accept e.keywords u <;> cases t.accept keywords u' <;> intro answers <;> cases answers
    · exact fails
    · rename_i value
      exact .matched value notes ⟨rfl, rfl, later⟩

theorem atEnd : RelatedAttempt R Eq e.atEnd (e.under keywords).atEnd := by
  intro c c' notes h
  have fails := RelatedAnswer.fail (α := Unit) (S := Eq) e keywords .endOfInput h notes
  have rests := h.rest
  simp only [Engine.atEnd]
  cases left : c.rest with
  | nil =>
    have none : c'.rest = [] := by simpa [left] using rests
    simpa [none] using .matched rfl notes h
  | cons first later =>
    rw [left] at rests
    obtain ⟨first', later', -, -, some⟩ := List.forall₂_cons_left_iff.1 rests
    simpa [some] using fails

theorem map {f f' : α → β} (values : ∀ x x', S x x' → T (f x) (f' x'))
    (ha : RelatedAttempt R S a a') : RelatedAttempt R T (Engine.map f a) (Engine.map f' a') := by
  intro c c' notes h
  rw [map_eq, map_eq]
  exact (ha h).follow
    (fun x x' _ _ mid value later => .matched (values x x' value) mid later) fun g mid => .failed g mid

theorem convert (f : α → Except String β) (ha : RelatedAttempt R Eq a a') :
    RelatedAttempt R Eq (e.convert f a) ((e.under keywords).convert f a') := by
  intro c c' notes h
  rw [convert_eq, convert_eq]
  refine (ha h).follow (fun x x' next next' mid same later => ?_) fun g mid => .failed g mid
  subst same
  cases f x with
  | ok y => exact .matched rfl mid later
  | error reason => exact .fail e keywords _ h mid

theorem both (ha : RelatedAttempt R S a a') (hb : RelatedAttempt R T b b') :
    RelatedAttempt R (fun p p' => S p.1 p'.1 ∧ T p.2 p'.2) (Engine.both a b) (Engine.both a' b') := by
  intro c c' notes h
  rw [both_eq, both_eq]
  exact (ha h).follow
    (fun x x' _ _ mid value later => hb.map (fun y y' value' => ⟨value, value'⟩) later)
    fun g mid => .failed g mid

theorem either {b b' : Attempt σ α} (ha : RelatedAttempt R S a a') (hb : RelatedAttempt R S b b') :
    RelatedAttempt R S (e.either a b) ((e.under keywords).either a' b') := by
  intro c c' notes h
  rw [either_eq, either_eq, commits_under, h.pos]
  refine (ha h).follow (fun _ _ _ _ mid value later => .matched value mid later) fun f mid => ?_
  split
  · exact .failed f mid
  · exact (hb h).follow (fun _ _ _ _ mid value later => .matched value mid later)
      fun g mid => .failed _ mid

theorem optional (ha : RelatedAttempt R S a a') :
    RelatedAttempt R (Option.Rel S) (e.optional a) ((e.under keywords).optional a') := by
  intro c c' notes h
  rw [optional_eq, optional_eq, commits_under, h.pos]
  refine (ha h).follow (fun _ _ _ _ mid value later => .matched (.some value) mid later)
    fun f mid => ?_
  split
  · exact .failed f mid
  · exact .matched .none mid h

theorem manyUpTo (ha : RelatedAttempt R S a a') (bound : Nat) :
    RelatedAttempt R (List.Forall₂ S) (e.manyUpTo a bound) ((e.under keywords).manyUpTo a' bound) := by
  induction bound with
  | zero => exact .unanswered
  | succ bound ih =>
    intro c c' notes h
    rw [manyUpTo_succ_eq, manyUpTo_succ_eq, commits_under, h.pos]
    refine (ha h).follow (fun x x' next next' mid value later => ?_) fun f mid => ?_
    · rw [later.pos]
      split
      · exact .matched .nil mid h
      · exact ih.map (fun _ _ values => .cons value values) later
    · split
      · exact .failed f mid
      · exact .matched .nil mid h

theorem followersUpTo (ha : RelatedAttempt R S a a') (bound : Nat) :
    RelatedAttempt R (List.Forall₂ S) (e.followersUpTo a bound)
      ((e.under keywords).followersUpTo a' bound) := by
  induction bound with
  | zero => exact .unanswered
  | succ bound ih =>
    intro c c' notes h
    rw [followersUpTo_succ_eq, followersUpTo_succ_eq, commits_under, h.pos]
    refine (ha h).follow (fun x x' next next' mid value later => ?_) fun f mid => ?_
    · rw [later.pos]
      split
      · exact .diverged mid
      · exact ih.map (fun _ _ values => .cons value values) later
    · split
      · exact .failed f mid
      · exact .matched .nil mid h

theorem many (ha : RelatedAttempt R S a a') :
    RelatedAttempt R (List.Forall₂ S) (e.many a) ((e.under keywords).many a') := by
  intro c c' notes h
  rw [Engine.many, Engine.many, ← h.rest.length_eq]
  exact ha.manyUpTo _ h

theorem sepBy1 (ha : RelatedAttempt R S a a') (hb : RelatedAttempt R T b b') :
    RelatedAttempt R (List.Forall₂ S) (e.sepBy1 a b) ((e.under keywords).sepBy1 a' b') := by
  intro c c' notes h
  rw [sepBy1_eq, sepBy1_eq]
  refine (ha h).follow (fun x x' next next' mid value later => ?_) fun f mid => .failed f mid
  rw [← later.rest.length_eq]
  have follower := (hb.both ha).map (T := S) fun _ _ values => values.2
  exact (follower.followersUpTo _).map (fun _ _ values => .cons value values) later

theorem nested (ha : RelatedAttempt R S a a') :
    RelatedAttempt R S (e.nested a) ((e.under keywords).nested a') := by
  intro c c' notes h
  rw [nested_eq, nested_eq, maxDepth_under, h.depth]
  split
  · exact .fail e keywords _ h notes
  · have inside : Cursor.Paired R { c with depth := c.depth + 1 } { c' with depth := c.depth + 1 } :=
      ⟨h.pos, rfl, h.rest⟩
    exact (ha inside).follow
      (fun _ _ _ _ mid value later => .matched value mid ⟨later.pos, rfl, later.rest⟩)
      fun f mid => .failed f mid

-- Values that are equal are made into equal values.

theorem token_same {t : Terminal}
    (same : ∀ u u', R u u' → t.accept keywords u' = t.accept e.keywords u) :
    RelatedAttempt R Eq (e.token t) ((e.under keywords).token t) := by
  refine .token fun u u' h => ?_
  rw [same u u' h]
  cases t.accept e.keywords u with
  | none => exact .none
  | some x => exact .some rfl

theorem map_same (f : α → β) (ha : RelatedAttempt R Eq a a') :
    RelatedAttempt R Eq (Engine.map f a) (Engine.map f a') :=
  ha.map fun _ _ same => congrArg f same

theorem both_same (ha : RelatedAttempt R Eq a a') (hb : RelatedAttempt R Eq b b') :
    RelatedAttempt R Eq (Engine.both a b) (Engine.both a' b') :=
  (ha.both hb).mono fun _ _ same => Prod.ext same.1 same.2

theorem optional_same (ha : RelatedAttempt R Eq a a') :
    RelatedAttempt R Eq (e.optional a) ((e.under keywords).optional a') := by
  refine ha.optional.mono fun x x' same => ?_
  cases same with
  | some same => exact congrArg some same
  | none => rfl

theorem many_same (ha : RelatedAttempt R Eq a a') :
    RelatedAttempt R Eq (e.many a) ((e.under keywords).many a') :=
  List.forall₂_eq_eq_eq (α := α) ▸ ha.many

theorem sepBy1_same (ha : RelatedAttempt R Eq a a') (hb : RelatedAttempt R Eq b b') :
    RelatedAttempt R Eq (e.sepBy1 a b) ((e.under keywords).sepBy1 a' b') :=
  List.forall₂_eq_eq_eq (α := α) ▸ ha.sepBy1 hb

end RelatedAttempt
end Engine
end TableDdl
