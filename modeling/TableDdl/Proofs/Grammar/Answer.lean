import TableDdl.Proofs.Grammar.Follow

/-!
# Answers

What a rule answers at a cursor, notes left aside: the engine takes notes and never reads them,
so two engines that differ in their notes alone give the same outcomes. Each combinator has one
equation here, in terms of the answers of its parts.
-/
namespace TableDdl

variable {N : Type → Type} {σ τ α β : Type}

namespace Outcome

/-- What comes after a match, or after a failure. -/
def handle (o : Outcome α) (matched : α → Cursor → Outcome β) (failed : Failure → Outcome β) :
    Outcome β :=
  match o with
  | .matched x next => matched x next
  | .failed f => failed f
  | .diverged => .diverged

def map (f : α → β) (o : Outcome α) : Outcome β := o.handle (fun x next => .matched (f x) next) .failed

variable (x : α) (next : Cursor) (f : Failure) (k : α → Cursor → Outcome β) (h : Failure → Outcome β)

@[simp] theorem handle_matched : (Outcome.matched x next).handle k h = k x next := rfl

@[simp] theorem handle_failed : (Outcome.failed f : Outcome α).handle k h = h f := rfl

@[simp] theorem handle_diverged : (Outcome.diverged : Outcome α).handle k h = .diverged := rfl

@[simp] theorem map_matched (g : α → β) :
    (Outcome.matched x next).map g = .matched (g x) next := rfl

@[simp] theorem map_failed (g : α → β) : (Outcome.failed f : Outcome α).map g = .failed f := rfl

@[simp] theorem map_diverged (g : α → β) : (Outcome.diverged : Outcome α).map g = .diverged := rfl

theorem map_eq_matched_iff {g : α → β} {o : Outcome α} {y : β} {next : Cursor} :
    o.map g = .matched y next ↔ ∃ x, o = .matched x next ∧ g x = y := by
  cases o <;> simp [← and_assoc, and_comm]

theorem map_eq_failed_iff {g : α → β} {o : Outcome α} {f : Failure} :
    o.map g = .failed f ↔ o = .failed f := by
  cases o <;> simp

end Outcome

namespace Engine

/-- The engine that takes no notes. -/
def silent (e : Engine σ) : Engine Unit where
  keywords := e.keywords
  lookahead := e.lookahead
  maxDepth := e.maxDepth
  note := fun _ _ => ()

/-- The two attempts come to the same, whatever is noted. -/
def SameOutcome (a : Attempt σ α) (b : Attempt τ α) : Prop :=
  ∀ c notes notes', (a c notes).1 = (b c notes').1

/-- Any notes do beside any others. -/
theorem sameOutcome_iff {a : Attempt σ α} {b : Attempt τ α} :
    SameOutcome a b ↔ Abreast (fun _ _ => True) a b :=
  ⟨fun h c s t _ => ⟨h c s t, trivial⟩, fun h c s t => (h c s t trivial).1⟩

namespace SameOutcome

variable {e : Engine σ} {a : Attempt σ α} {a' : Attempt Unit α} {b : Attempt σ β}
  {b' : Attempt Unit β}

theorem map (f : α → β) (h : SameOutcome a a') :
    SameOutcome (Engine.map f a) (Engine.map f a') :=
  sameOutcome_iff.2 ((sameOutcome_iff.1 h).map f)

theorem both (ha : SameOutcome a a') (hb : SameOutcome b b') :
    SameOutcome (Engine.both a b) (Engine.both a' b') :=
  sameOutcome_iff.2 ((sameOutcome_iff.1 ha).both (sameOutcome_iff.1 hb))

theorem manyUpTo (h : SameOutcome a a') (bound : Nat) :
    SameOutcome (e.manyUpTo a bound) (e.silent.manyUpTo a' bound) :=
  sameOutcome_iff.2 ((sameOutcome_iff.1 h).manyUpTo bound)

theorem followersUpTo (h : SameOutcome a a') (bound : Nat) :
    SameOutcome (e.followersUpTo a bound) (e.silent.followersUpTo a' bound) :=
  sameOutcome_iff.2 ((sameOutcome_iff.1 h).followersUpTo bound)

theorem either {b : Attempt σ α} {b' : Attempt Unit α} (ha : SameOutcome a a')
    (hb : SameOutcome b b') : SameOutcome (e.either a b) (e.silent.either a' b') :=
  sameOutcome_iff.2 ((sameOutcome_iff.1 ha).either (sameOutcome_iff.1 hb))

theorem sepBy1 (ha : SameOutcome a a') (hb : SameOutcome b b') :
    SameOutcome (e.sepBy1 a b) (e.silent.sepBy1 a' b') :=
  sameOutcome_iff.2 ((sameOutcome_iff.1 ha).sepBy1 (sameOutcome_iff.1 hb))

end SameOutcome

/-- Notes are taken and never read. -/
theorem sameOutcome_silent (e : Engine σ) (grammar : ∀ {β : Type}, N β → Rule N β) :
    RunRelation e e.silent grammar fun _ a a' => SameOutcome a a' := by
  simp only [sameOutcome_iff]
  exact abreast_relation (fun _ _ _ _ _ => trivial) grammar

/-- What a rule comes to at a cursor, with at most `calls` named rules inside each other. -/
def answer (e : Engine σ) (grammar : ∀ {β : Type}, N β → Rule N β) (calls : Nat) (r : Rule N α)
    (c : Cursor) : Outcome α :=
  (e.silent.run grammar calls r c ()).1

theorem run_fst (e : Engine σ) (grammar : ∀ {β : Type}, N β → Rule N β) (calls : Nat)
    (r : Rule N α) (c : Cursor) (notes : σ) :
    (e.run grammar calls r c notes).1 = e.answer grammar calls r c :=
  (sameOutcome_silent e grammar).run calls r c notes ()

section Equations

variable (e : Engine Unit) (a : Attempt Unit α) (b : Attempt Unit β) (c : Cursor)

theorem fst_map (f : α → β) : (map f a c ()).1 = (a c ()).1.map f := by
  rcases h : a c () with ⟨o, _⟩
  simp only [map, h]
  cases o <;> rfl

theorem fst_convert (f : α → Except String β) : (e.convert f a c ()).1 =
    (a c ()).1.handle (fun x next => match f x with
      | .ok y => .matched y next
      | .error reason => .failed ⟨c.pos, [.invalid reason]⟩) .failed := by
  rcases h : a c () with ⟨o, _⟩
  simp only [convert, fail, h]
  cases o with
  | matched x next => cases h : f x <;> simp [h]
  | failed f => rfl
  | diverged => rfl

theorem fst_both : (both a b c ()).1 =
    (a c ()).1.handle (fun x mid => (b mid ()).1.map (x, ·)) .failed := by
  rcases h : a c () with ⟨o, _⟩
  simp only [both, h]
  cases o with
  | matched x mid => exact fst_map b mid _
  | failed f => rfl
  | diverged => rfl

theorem fst_either (b : Attempt Unit α) : (e.either a b c ()).1 =
    (a c ()).1.handle .matched fun f =>
      if e.commits c.pos f then .failed f
      else (b c ()).1.handle .matched fun g =>
        .failed (if e.commits c.pos g then g else f.deeper g) := by
  rcases ha : a c () with ⟨o, _⟩
  rcases hb : b c () with ⟨p, _⟩
  simp only [either, ha, hb]
  cases o with
  | matched x next => rfl
  | failed f =>
    simp only [Outcome.handle_failed]
    split
    · rfl
    · cases p <;> rfl
  | diverged => rfl

theorem fst_optional : (e.optional a c ()).1 =
    (a c ()).1.handle (fun x next => .matched (some x) next) fun f =>
      if e.commits c.pos f then .failed f else .matched none c := by
  rcases h : a c () with ⟨o, _⟩
  simp only [optional, h]
  cases o with
  | matched x next => rfl
  | failed f =>
    simp only [Outcome.handle_failed]
    split <;> rfl
  | diverged => rfl

theorem fst_manyUpTo_succ (bound : Nat) : (e.manyUpTo a (bound + 1) c ()).1 =
    (a c ()).1.handle (fun x next =>
      if next.pos = c.pos then .matched [] c
      else (e.manyUpTo a bound next ()).1.map (x :: ·)) fun f =>
        if e.commits c.pos f then .failed f else .matched [] c := by
  rcases h : a c () with ⟨o, _⟩
  simp only [manyUpTo, h]
  cases o with
  | matched x next =>
    simp only [Outcome.handle_matched]
    split
    · rfl
    · exact fst_map _ next _
  | failed f =>
    simp only [Outcome.handle_failed]
    split <;> rfl
  | diverged => rfl

theorem fst_followersUpTo_succ (bound : Nat) : (e.followersUpTo a (bound + 1) c ()).1 =
    (a c ()).1.handle (fun x next =>
      if next.pos = c.pos then .diverged
      else (e.followersUpTo a bound next ()).1.map (x :: ·)) fun f =>
        if e.commits c.pos f then .failed f else .matched [] c := by
  rcases h : a c () with ⟨o, _⟩
  simp only [followersUpTo, h]
  cases o with
  | matched x next =>
    simp only [Outcome.handle_matched]
    split
    · rfl
    · exact fst_map _ next _
  | failed f =>
    simp only [Outcome.handle_failed]
    split <;> rfl
  | diverged => rfl

theorem fst_sepBy1 : (e.sepBy1 a b c ()).1 =
    (a c ()).1.handle (fun x next =>
      (e.followersUpTo (map Prod.snd (both b a)) (next.rest.length + 1) next ()).1.map (x :: ·))
      .failed := by
  rcases h : a c () with ⟨o, _⟩
  simp only [sepBy1, h]
  cases o with
  | matched x next => exact fst_map _ next _
  | failed f => rfl
  | diverged => rfl

theorem fst_nested : (e.nested a c ()).1 =
    if e.maxDepth ≤ c.depth then .failed ⟨c.pos, [.invalid "nesting too deep"]⟩
    else (a { c with depth := c.depth + 1 } ()).1.handle
      (fun x next => .matched x { next with depth := c.depth }) .failed := by
  simp only [nested, fail]
  split
  · rfl
  · rcases h : a { c with depth := c.depth + 1 } () with ⟨o, _⟩
    cases o <;> rfl

end Equations
end Engine
end TableDdl
