import TableDdl.Proofs.Grammar.Answer

/-!
# Runs only move forward

A match takes some tokens from the front and restores the depth of nesting; a failure lies
between the start and the end of the tokens. A repetition therefore never comes to its bound on
rounds, and a repetition is one round and the repetition after it.
-/
namespace TableDdl

variable {N : Type → Type} {σ α β : Type}

/-- Some tokens further on, at the same depth. -/
def Cursor.Reaches (c next : Cursor) : Prop :=
  ∃ taken, c.rest = taken ++ next.rest ∧ next.pos = c.pos + taken.length ∧ next.depth = c.depth

namespace Cursor.Reaches

theorem refl (c : Cursor) : c.Reaches c := ⟨[], rfl, rfl, rfl⟩

theorem trans {a b c : Cursor} (hab : a.Reaches b) (hbc : b.Reaches c) : a.Reaches c := by
  obtain ⟨s, hs, ps, ds⟩ := hab
  obtain ⟨t, ht, pt, dt⟩ := hbc
  exact ⟨s ++ t, by simp [hs, ht], by simp [ps, pt, Nat.add_assoc], dt.trans ds⟩

variable {c next : Cursor}

theorem le (h : c.Reaches next) : c.pos ≤ next.pos := by
  obtain ⟨_, _, pos, _⟩ := h
  omega

theorem depth (h : c.Reaches next) : next.depth = c.depth := by
  obtain ⟨_, _, _, same⟩ := h
  exact same

/-- Position and tokens left always make up the same sum. -/
theorem total (h : c.Reaches next) : next.pos + next.rest.length = c.pos + c.rest.length := by
  obtain ⟨_, whole, pos, _⟩ := h
  have length := congrArg List.length whole
  rw [List.length_append] at length
  omega

theorem length_lt (h : c.Reaches next) (moved : next.pos ≠ c.pos) :
    next.rest.length < c.rest.length := by
  have := h.total
  have := h.le
  omega

end Cursor.Reaches

namespace Outcome

/-- The outcome is none that goes back from `c`, or past the end. -/
def Ahead (o : Outcome α) (c : Cursor) : Prop :=
  match o with
  | .matched _ next => c.Reaches next
  | .failed f => c.pos ≤ f.pos ∧ f.pos ≤ c.pos + c.rest.length
  | .diverged => True

theorem Ahead.of_reaches {o : Outcome α} {c mid : Cursor} (h : c.Reaches mid) (ho : o.Ahead mid) :
    o.Ahead c := by
  cases o with
  | matched x next => exact h.trans ho
  | failed f =>
    have := h.le
    have := h.total
    simp only [Ahead] at ho ⊢
    omega
  | diverged => trivial

theorem Ahead.map {o : Outcome α} {c : Cursor} (f : α → β) (h : o.Ahead c) : (o.map f).Ahead c := by
  cases o <;> exact h

theorem Ahead.handle {o : Outcome α} {c : Cursor} {k : α → Cursor → Outcome β}
    {r : Failure → Outcome β} (h : o.Ahead c) (matched : ∀ x next, c.Reaches next → (k x next).Ahead c)
    (failed : ∀ f, c.pos ≤ f.pos ∧ f.pos ≤ c.pos + c.rest.length → (r f).Ahead c) :
    (o.handle k r).Ahead c := by
  cases o with
  | matched x next => exact matched x next h
  | failed f => exact failed f h
  | diverged => trivial

end Outcome

/-- The outcomes `rounds` are those of `a` over and over, up to an early failure. Where a round takes
no token they are `stuck`. -/
def Repeats (a : Cursor → Outcome α) (stuck rounds : Cursor → Outcome (List α)) : Prop :=
  ∀ c, rounds c = (a c).handle (fun x next =>
    if next.pos = c.pos then stuck c else (rounds next).map (x :: ·))
    fun f => if c.pos + 1 < f.pos then .failed f else .matched [] c

/-- A repetition fails only where one of its rounds fails late. -/
theorem Repeats.late {a : Cursor → Outcome α} {stuck rounds : Cursor → Outcome (List α)}
    (h : Repeats a stuck rounds) (ahead : ∀ c, (a c).Ahead c) (never : ∀ c f, stuck c ≠ .failed f)
    {c : Cursor} {f : Failure} (failed : rounds c = .failed f) : c.pos + 1 < f.pos := by
  induction length : c.rest.length using Nat.strongRecOn generalizing c with
  | ind n ih =>
    have reaches := ahead c
    rw [h c] at failed
    cases first : a c with
    | matched x next =>
      rw [first] at reaches
      by_cases same : next.pos = c.pos
      · simp [first, same, never] at failed
      · simp only [first, Outcome.handle_matched, same, if_false,
          Outcome.map_eq_failed_iff] at failed
        have := ih _ (length ▸ reaches.length_lt same) failed rfl
        have := reaches.le
        omega
    | failed g =>
      by_cases late : c.pos + 1 < g.pos
      · simp only [first, Outcome.handle_failed, late, if_true, Outcome.failed.injEq] at failed
        rwa [← failed]
      · simp [first, late] at failed
    | diverged => simp [first] at failed

namespace Engine

/-- The attempt never goes back, and never past the end. -/
def Forward (a : Attempt Unit α) : Prop := ∀ c, (a c ()).1.Ahead c

namespace Forward

variable {e : Engine Unit} {a : Attempt Unit α} {b : Attempt Unit β}

theorem map (f : α → β) (ha : Forward a) : Forward (Engine.map f a) := fun c => by
  rw [fst_map]
  exact (ha c).map f

theorem both (ha : Forward a) (hb : Forward b) : Forward (Engine.both a b) := fun c => by
  rw [fst_both]
  exact (ha c).handle (fun x mid h => .of_reaches h ((hb mid).map _)) fun _ h => h

theorem either {b : Attempt Unit α} (ha : Forward a) (hb : Forward b) :
    Forward (e.either a b) := fun c => by
  rw [fst_either]
  refine (ha c).handle (fun _ _ h => h) fun f hf => ?_
  split
  · exact hf
  · refine (hb c).handle (fun _ _ h => h) fun g hg => ?_
    split
    · exact hg
    · simp only [Outcome.Ahead, Failure.deeper_pos]
      omega

theorem optional (ha : Forward a) : Forward (e.optional a) := fun c => by
  rw [fst_optional]
  refine (ha c).handle (fun _ _ h => h) fun f hf => ?_
  split
  · exact hf
  · exact .refl c

theorem manyUpTo (ha : Forward a) (bound : Nat) : Forward (e.manyUpTo a bound) := by
  induction bound with
  | zero => exact fun _ => trivial
  | succ bound ih =>
    intro c
    rw [fst_manyUpTo_succ]
    refine (ha c).handle (fun x next h => ?_) fun f hf => ?_
    · split
      · exact .refl c
      · exact .of_reaches h ((ih next).map _)
    · split
      · exact hf
      · exact .refl c

theorem followersUpTo (ha : Forward a) (bound : Nat) : Forward (e.followersUpTo a bound) := by
  induction bound with
  | zero => exact fun _ => trivial
  | succ bound ih =>
    intro c
    rw [fst_followersUpTo_succ]
    refine (ha c).handle (fun x next h => ?_) fun f hf => ?_
    · split
      · trivial
      · exact .of_reaches h ((ih next).map _)
    · split
      · exact hf
      · exact .refl c

theorem sepBy1 (ha : Forward a) (hb : Forward b) : Forward (e.sepBy1 a b) := fun c => by
  rw [fst_sepBy1]
  exact (ha c).handle
    (fun x mid h => .of_reaches h ((((hb.both ha).map Prod.snd).followersUpTo _ mid).map _))
    fun _ h => h

theorem convert (f : α → Except String β) (ha : Forward a) : Forward (e.convert f a) := fun c => by
  rw [fst_convert]
  refine (ha c).handle (fun x next h => ?_) fun _ h => h
  split
  · exact h
  · simp [Outcome.Ahead]

theorem nested (ha : Forward a) : Forward (e.nested a) := fun c => by
  rw [fst_nested]
  split
  · simp [Outcome.Ahead]
  · have inner := ha { c with depth := c.depth + 1 }
    revert inner
    cases (_ : Outcome _ × Unit).1 with
    | matched x next =>
      rintro ⟨taken, whole, pos, -⟩
      exact ⟨taken, whole, pos, rfl⟩
    | failed f => exact id
    | diverged => exact id

end Forward

theorem forward_relation (e : Engine Unit) (grammar : ∀ {β : Type}, N β → Rule N β) :
    RunRelation e e grammar fun _ a _ => Forward a where
  token t c := by
    simp only [token, fail]
    split
    · simp_all [Outcome.Ahead]
    · rename_i first rest tokens
      split
      · exact ⟨[first], tokens, rfl, rfl⟩
      · simp [Outcome.Ahead]
  atEnd c := by
    simp only [atEnd, fail]
    split
    · exact .refl c
    · simp [Outcome.Ahead]
  unanswered _ _ := trivial
  call ha := ha
  map f ha := ha.map f
  convert f ha := ha.convert f
  both ha hb := ha.both hb
  either ha hb := ha.either hb
  optional ha := ha.optional
  many ha c := ha.manyUpTo _ c
  sepBy1 ha hb := ha.sepBy1 hb
  nested ha := ha.nested

theorem forward_run (e : Engine Unit) (grammar : ∀ {β : Type}, N β → Rule N β) (calls : Nat)
    (r : Rule N α) : Forward (e.run grammar calls r) :=
  (forward_relation e grammar).run calls r

section Repetitions

variable {e : Engine Unit} {a : Attempt Unit α}

theorem Forward.reaches (ha : Forward a) {c next : Cursor} {x : α}
    (h : (a c ()).1 = .matched x next) : c.Reaches next := by
  have := ha c
  rwa [h] at this

theorem Forward.failure (ha : Forward a) {c : Cursor} {f : Failure}
    (h : (a c ()).1 = .failed f) : c.pos ≤ f.pos ∧ f.pos ≤ c.pos + c.rest.length := by
  have := ha c
  rwa [h] at this

/-- Every round but the last takes a token, so any bound above the number of tokens will do. -/
theorem manyUpTo_eq_of_lt (ha : Forward a) {bound bound' : Nat} {c : Cursor}
    (h : c.rest.length < bound) (h' : c.rest.length < bound') :
    (e.manyUpTo a bound c ()).1 = (e.manyUpTo a bound' c ()).1 := by
  induction bound generalizing bound' c with
  | zero => omega
  | succ bound ih =>
    obtain ⟨bound', rfl⟩ : ∃ k, bound' = k + 1 := ⟨bound' - 1, by omega⟩
    rw [fst_manyUpTo_succ, fst_manyUpTo_succ]
    cases first : (a c ()).1 with
    | matched x next =>
      by_cases same : next.pos = c.pos
      · simp [same]
      · have shorter := (ha.reaches first).length_lt same
        simp only [Outcome.handle_matched, same, if_false, @ih bound' next
          (by omega) (by omega)]
    | failed f => rfl
    | diverged => rfl

theorem followersUpTo_eq_of_lt (ha : Forward a) {bound bound' : Nat} {c : Cursor}
    (h : c.rest.length < bound) (h' : c.rest.length < bound') :
    (e.followersUpTo a bound c ()).1 = (e.followersUpTo a bound' c ()).1 := by
  induction bound generalizing bound' c with
  | zero => omega
  | succ bound ih =>
    obtain ⟨bound', rfl⟩ : ∃ k, bound' = k + 1 := ⟨bound' - 1, by omega⟩
    rw [fst_followersUpTo_succ, fst_followersUpTo_succ]
    cases first : (a c ()).1 with
    | matched x next =>
      by_cases same : next.pos = c.pos
      · simp [same]
      · have shorter := (ha.reaches first).length_lt same
        simp only [Outcome.handle_matched, same, if_false, @ih bound' next
          (by omega) (by omega)]
    | failed f => rfl
    | diverged => rfl

/-- A repetition is one round and the repetition after it. -/
theorem fst_many (ha : Forward a) (c : Cursor) : (e.many a c ()).1 =
    (a c ()).1.handle (fun x next =>
      if next.pos = c.pos then .matched [] c else (e.many a next ()).1.map (x :: ·)) fun f =>
        if e.commits c.pos f then .failed f else .matched [] c := by
  rw [many, fst_manyUpTo_succ]
  cases first : (a c ()).1 with
  | matched x next =>
    by_cases same : next.pos = c.pos
    · simp [same]
    · have shorter := (ha.reaches first).length_lt same
      simp only [Outcome.handle_matched, same, if_false, many]
      rw [manyUpTo_eq_of_lt ha (by omega) (Nat.lt_succ_self _)]
  | failed f => rfl
  | diverged => rfl

/-- The same for what follows the first item of a list. -/
theorem fst_followers (ha : Forward a) (c : Cursor) :
    (e.followersUpTo a (c.rest.length + 1) c ()).1 =
      (a c ()).1.handle (fun x next =>
        if next.pos = c.pos then .diverged
        else (e.followersUpTo a (next.rest.length + 1) next ()).1.map (x :: ·)) fun f =>
          if e.commits c.pos f then .failed f else .matched [] c := by
  rw [fst_followersUpTo_succ]
  cases first : (a c ()).1 with
  | matched x next =>
    by_cases same : next.pos = c.pos
    · simp [same]
    · have shorter := (ha.reaches first).length_lt same
      simp only [Outcome.handle_matched, same, if_false]
      rw [followersUpTo_eq_of_lt ha (by omega) (Nat.lt_succ_self _)]
  | failed f => rfl
  | diverged => rfl

end Repetitions
end Engine
end TableDdl
