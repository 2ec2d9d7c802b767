import TableDdl.Proofs.Grammar.Runs

/-!
# Notes side by side

Each combinator goes on from the answer of its first part. Two engines that differ in their notes
alone go the same way. Main statement: a relation between their notes that holds at the start, and
that every single failure keeps, holds at the end of a run.
-/
namespace TableDdl

variable {N : Type → Type} {σ τ α β : Type}

namespace Engine

/-- What comes after a match, or after a failure, where notes are taken. -/
def follow (answer : Outcome α × σ) (matched : α → Cursor → σ → Outcome β × σ)
    (failed : Failure → σ → Outcome β × σ) : Outcome β × σ :=
  match answer with
  | (.matched x next, notes) => matched x next notes
  | (.failed f, notes) => failed f notes
  | (.diverged, notes) => (.diverged, notes)

section Equations

variable (e : Engine σ) (a : Attempt σ α) (b : Attempt σ β) (c : Cursor) (notes : σ)

theorem map_eq (f : α → β) : map f a c notes =
    follow (a c notes) (fun x next notes => (.matched (f x) next, notes))
      fun f notes => (.failed f, notes) := by
  rcases h : a c notes with ⟨_ | _ | _, _⟩ <;> simp [map, follow, h]

theorem convert_eq (f : α → Except String β) : e.convert f a c notes =
    follow (a c notes) (fun x next notes => match f x with
      | .ok y => (.matched y next, notes)
      | .error reason => e.fail (.invalid reason) c notes) fun f notes => (.failed f, notes) := by
  rcases h : a c notes with ⟨x | _ | _, _⟩
  · cases hx : f x <;> simp [convert, follow, h, hx]
  · simp [convert, follow, h]
  · simp [convert, follow, h]

theorem both_eq : both a b c notes =
    follow (a c notes) (fun x mid notes => map (x, ·) b mid notes)
      fun f notes => (.failed f, notes) := by
  rcases h : a c notes with ⟨_ | _ | _, _⟩ <;> simp [both, follow, h]

theorem either_eq (b : Attempt σ α) : e.either a b c notes =
    follow (a c notes) (fun x next notes => (.matched x next, notes)) fun f notes =>
      if e.commits c.pos f then (.failed f, notes)
      else follow (b c notes) (fun x next notes => (.matched x next, notes)) fun g notes =>
        (.failed (if e.commits c.pos g then g else f.deeper g), notes) := by
  rcases ha : a c notes with ⟨_ | f | _, mid⟩
  · simp [either, follow, ha]
  · rcases hb : b c mid with ⟨_ | _ | _, _⟩ <;> simp [either, follow, ha, hb]
  · simp [either, follow, ha]

theorem optional_eq : e.optional a c notes =
    follow (a c notes) (fun x next notes => (.matched (some x) next, notes)) fun f notes =>
      if e.commits c.pos f then (.failed f, notes) else (.matched none c, notes) := by
  rcases h : a c notes with ⟨_ | _ | _, _⟩ <;> simp [optional, follow, h]

theorem manyUpTo_succ_eq (bound : Nat) : e.manyUpTo a (bound + 1) c notes =
    follow (a c notes) (fun x next notes =>
      if next.pos = c.pos then (.matched [] c, notes)
      else map (x :: ·) (e.manyUpTo a bound) next notes) fun f notes =>
        if e.commits c.pos f then (.failed f, notes) else (.matched [] c, notes) := by
  rcases h : a c notes with ⟨_ | _ | _, _⟩ <;> simp [manyUpTo, follow, h]

theorem followersUpTo_succ_eq (bound : Nat) : e.followersUpTo a (bound + 1) c notes =
    follow (a c notes) (fun x next notes =>
      if next.pos = c.pos then (.diverged, notes)
      else map (x :: ·) (e.followersUpTo a bound) next notes) fun f notes =>
        if e.commits c.pos f then (.failed f, notes) else (.matched [] c, notes) := by
  rcases h : a c notes with ⟨_ | _ | _, _⟩ <;> simp [followersUpTo, follow, h]

theorem sepBy1_eq : e.sepBy1 a b c notes =
    follow (a c notes) (fun x next notes =>
      map (x :: ·) (e.followersUpTo (map Prod.snd (both b a)) (next.rest.length + 1)) next notes)
      fun f notes => (.failed f, notes) := by
  rcases h : a c notes with ⟨_ | _ | _, _⟩ <;> simp [sepBy1, follow, h]

theorem nested_eq : e.nested a c notes =
    if e.maxDepth ≤ c.depth then e.fail (.invalid "nesting too deep") c notes
    else follow (a { c with depth := c.depth + 1 } notes)
      (fun x next notes => (.matched x { next with depth := c.depth }, notes))
      fun f notes => (.failed f, notes) := by
  rcases h : a { c with depth := c.depth + 1 } notes with ⟨_ | _ | _, _⟩ <;>
    simp [nested, follow, h]

end Equations

/-- The engine with other notes. -/
def withNotes (e : Engine σ) (note : τ → Failure → τ) : Engine τ where
  keywords := e.keywords
  lookahead := e.lookahead
  maxDepth := e.maxDepth
  note := note

@[simp] theorem commits_withNotes (e : Engine σ) (note : τ → Failure → τ) :
    (e.withNotes note).commits = e.commits := rfl

/-- The same outcome, with notes that are related. -/
def Beside (R : σ → τ → Prop) (answer : Outcome α × σ) (answer' : Outcome α × τ) : Prop :=
  answer.1 = answer'.1 ∧ R answer.2 answer'.2

/-- From related notes the attempts come to the same, and their notes are related again. -/
def Abreast (R : σ → τ → Prop) (a : Attempt σ α) (a' : Attempt τ α) : Prop :=
  ∀ c s t, R s t → Beside R (a c s) (a' c t)

variable {R : σ → τ → Prop} {e : Engine σ} {note : τ → Failure → τ}

namespace Beside

variable {s : σ} {t : τ}

theorem same (related : R s t) (o : Outcome α) : Beside R (o, s) (o, t) := ⟨rfl, related⟩

theorem ite {p : Prop} [Decidable p] {x y : Outcome α × σ} {x' y' : Outcome α × τ}
    (yes : Beside R x x') (no : Beside R y y') :
    Beside R (if p then x else y) (if p then x' else y') := by
  split
  · exact yes
  · exact no

theorem follow {answer : Outcome α × σ} {answer' : Outcome α × τ}
    {k : α → Cursor → σ → Outcome β × σ} {k' : α → Cursor → τ → Outcome β × τ}
    {r : Failure → σ → Outcome β × σ} {r' : Failure → τ → Outcome β × τ}
    (h : Beside R answer answer')
    (matched : ∀ x next s t, R s t → Beside R (k x next s) (k' x next t))
    (failed : ∀ f s t, R s t → Beside R (r f s) (r' f t)) :
    Beside R (Engine.follow answer k r) (Engine.follow answer' k' r') := by
  obtain ⟨o, s⟩ := answer
  obtain ⟨o', t⟩ := answer'
  obtain ⟨rfl, related⟩ : o = o' ∧ R s t := h
  cases o with
  | matched x next => exact matched x next s t related
  | failed f => exact failed f s t related
  | diverged => exact .same related _

end Beside

namespace Abreast

variable {a : Attempt σ α} {a' : Attempt τ α} {b : Attempt σ β} {b' : Attempt τ β}

theorem map (f : α → β) (ha : Abreast R a a') : Abreast R (Engine.map f a) (Engine.map f a') := by
  intro c s t related
  rw [map_eq, map_eq]
  exact (ha c s t related).follow (fun _ _ _ _ later => .same later _) fun _ _ _ later =>
    .same later _

theorem both (ha : Abreast R a a') (hb : Abreast R b b') :
    Abreast R (Engine.both a b) (Engine.both a' b') := by
  intro c s t related
  rw [both_eq, both_eq]
  exact (ha c s t related).follow (fun _ mid s t later => hb.map _ mid s t later)
    fun _ _ _ later => .same later _

theorem either {b : Attempt σ α} {b' : Attempt τ α} (ha : Abreast R a a') (hb : Abreast R b b') :
    Abreast R (e.either a b) ((e.withNotes note).either a' b') := by
  intro c s t related
  rw [either_eq, either_eq, commits_withNotes]
  refine (ha c s t related).follow (fun _ _ _ _ later => .same later _) fun f s t later => ?_
  exact .ite (.same later _) ((hb c s t later).follow (fun _ _ _ _ later => .same later _)
    fun _ _ _ later => .same later _)

theorem optional (ha : Abreast R a a') :
    Abreast R (e.optional a) ((e.withNotes note).optional a') := by
  intro c s t related
  rw [optional_eq, optional_eq, commits_withNotes]
  exact (ha c s t related).follow (fun _ _ _ _ later => .same later _)
    fun _ _ _ later => .ite (.same later _) (.same later _)

theorem manyUpTo (ha : Abreast R a a') (bound : Nat) :
    Abreast R (e.manyUpTo a bound) ((e.withNotes note).manyUpTo a' bound) := by
  induction bound with
  | zero => exact fun c s t related => .same related _
  | succ bound ih =>
    intro c s t related
    rw [manyUpTo_succ_eq, manyUpTo_succ_eq, commits_withNotes]
    exact (ha c s t related).follow
      (fun _ next s t later => .ite (.same later _) (ih.map _ next s t later))
      fun _ _ _ later => .ite (.same later _) (.same later _)

theorem followersUpTo (ha : Abreast R a a') (bound : Nat) :
    Abreast R (e.followersUpTo a bound) ((e.withNotes note).followersUpTo a' bound) := by
  induction bound with
  | zero => exact fun c s t related => .same related _
  | succ bound ih =>
    intro c s t related
    rw [followersUpTo_succ_eq, followersUpTo_succ_eq, commits_withNotes]
    exact (ha c s t related).follow
      (fun _ next s t later => .ite (.same later _) (ih.map _ next s t later))
      fun _ _ _ later => .ite (.same later _) (.same later _)

theorem sepBy1 (ha : Abreast R a a') (hb : Abreast R b b') :
    Abreast R (e.sepBy1 a b) ((e.withNotes note).sepBy1 a' b') := by
  intro c s t related
  rw [sepBy1_eq, sepBy1_eq]
  exact (ha c s t related).follow
    (fun _ next s t later => (((hb.both ha).map Prod.snd).followersUpTo _).map _ next s t later)
    fun _ _ _ later => .same later _

end Abreast

/-- What every failure keeps, every run does. -/
theorem abreast_relation
    (step : ∀ s t pos x, R s t → R (e.note s ⟨pos, [x]⟩) (note t ⟨pos, [x]⟩))
    (grammar : ∀ {β : Type}, N β → Rule N β) :
    RunRelation e (e.withNotes note) grammar fun _ a a' => Abreast R a a' := by
  have fails {α : Type} (x : Expected) : Abreast R (e.fail (α := α) x) ((e.withNotes note).fail x) :=
    fun c s t related => ⟨rfl, step s t c.pos x related⟩
  exact {
    token := by
      intro t c s u related
      simp only [token]
      split
      · exact fails _ c s u related
      · rename_i first rest _
        have same : t.accept (e.withNotes note).keywords first = t.accept e.keywords first := rfl
        rw [same]
        split
        · exact .same related _
        · exact fails _ c s u related
    atEnd := fun c s t related => .ite (.same related _) (fails _ c s t related)
    unanswered := fun _ _ _ _ related => .same related _
    call := id
    map := fun f ha => ha.map f
    convert := by
      intro _ _ _ a a' f ha c s t related
      rw [convert_eq, convert_eq]
      refine (ha c s t related).follow (fun x next s t later => ?_) fun _ _ _ later => .same later _
      cases f x with
      | ok y => exact .same later _
      | error reason => exact fails _ c s t later
    both := .both
    either := .either
    optional := .optional
    many := fun ha c => ha.manyUpTo _ c
    sepBy1 := .sepBy1
    nested := by
      intro _ _ a a' ha c s t related
      rw [nested_eq, nested_eq]
      exact .ite (fails _ c s t related) ((ha _ s t related).follow
        (fun _ _ _ _ later => .same later _) fun _ _ _ later => .same later _) }

end Engine
end TableDdl
