import TableDdl.Proofs.Grammar.Reading

/-!
# Rules read the same everywhere

Only the distance of a failure from the start of an attempt counts, so a rule reads the same tokens
in the same way wherever they stand in a text: the places of its outcome move along with them.
-/
namespace TableDdl

variable {N : Type → Type} {α β : Type}

/-- The same tokens, `k` places further on. -/
def Cursor.shift (k : Nat) (c : Cursor) : Cursor := { c with pos := c.pos + k }

def Failure.shift (k : Nat) (f : Failure) : Failure := { f with pos := f.pos + k }

theorem Failure.deeper_shift (k : Nat) (f g : Failure) :
    (f.shift k).deeper (g.shift k) = (f.deeper g).shift k := by
  simp only [Failure.deeper, Failure.shift, Nat.add_lt_add_iff_right]
  split
  · rfl
  · split <;> rfl

/-- The outcome `k` places further on. -/
def Outcome.shift (k : Nat) : Outcome α → Outcome α
  | .matched x next => .matched x (next.shift k)
  | .failed f => .failed (f.shift k)
  | .diverged => .diverged

namespace Outcome

variable {k : Nat} {o : Outcome α}

theorem shift_map (f : α → β) : (o.map f).shift k = (o.shift k).map f := by
  cases o <;> rfl

theorem shift_handle {m m' : α → Cursor → Outcome β} {r r' : Failure → Outcome β}
    (matched : ∀ x next, o = .matched x next → m' x (next.shift k) = (m x next).shift k)
    (failed : ∀ f, r' (f.shift k) = (r f).shift k) :
    (o.shift k).handle m' r' = (o.handle m r).shift k := by
  cases o with
  | matched x next => exact matched x next rfl
  | failed f => exact failed f
  | diverged => rfl

end Outcome

namespace Engine

theorem commits_shift (e : Engine Unit) (k start : Nat) (f : Failure) :
    e.commits (start + k) (f.shift k) = e.commits start f := by
  have near (ahead : Nat) : start + k + ahead < f.pos + k ↔ start + ahead < f.pos := by omega
  simp [commits, Failure.shift, near]

/-- The attempt comes to the same `k` places further on. -/
def Shifts (k : Nat) (a : Attempt Unit α) : Prop := ∀ c, (a (c.shift k) ()).1 = (a c ()).1.shift k

namespace Shifts

variable {k : Nat} {e : Engine Unit} {a : Attempt Unit α} {b : Attempt Unit β}

theorem token (t : Terminal) : Shifts k (e.token t) := by
  rintro ⟨pos, rest, depth⟩
  cases rest with
  | nil => rfl
  | cons first rest =>
    simp only [Engine.token, Cursor.shift, fail, Nat.add_right_comm pos k 1]
    cases t.accept e.keywords first <;> rfl

theorem atEnd : Shifts k e.atEnd := by
  rintro ⟨pos, rest, depth⟩
  cases rest <;> rfl

theorem map (f : α → β) (ha : Shifts k a) : Shifts k (Engine.map f a) := fun c => by
  rw [fst_map, fst_map, ha, Outcome.shift_map]

theorem convert (f : α → Except String β) (ha : Shifts k a) : Shifts k (e.convert f a) :=
  fun c => by
  rw [fst_convert, fst_convert, ha]
  refine Outcome.shift_handle (fun x next _ => ?_) fun _ => rfl
  cases f x <;> rfl

theorem both (ha : Shifts k a) (hb : Shifts k b) : Shifts k (Engine.both a b) := fun c => by
  rw [fst_both, fst_both, ha]
  refine Outcome.shift_handle (fun x mid _ => ?_) fun _ => rfl
  rw [hb, Outcome.shift_map]

theorem either {b : Attempt Unit α} (ha : Shifts k a) (hb : Shifts k b) :
    Shifts k (e.either a b) := fun c => by
  rw [fst_either, fst_either, ha]
  refine Outcome.shift_handle (fun _ _ _ => rfl) fun f => ?_
  rw [Cursor.shift, commits_shift]
  split
  · rfl
  · have second := hb c
    rw [Cursor.shift] at second
    rw [second]
    refine Outcome.shift_handle (fun _ _ _ => rfl) fun g => ?_
    rw [commits_shift, Failure.deeper_shift]
    split <;> rfl

theorem optional (ha : Shifts k a) : Shifts k (e.optional a) := fun c => by
  rw [fst_optional, fst_optional, ha]
  refine Outcome.shift_handle (fun _ _ _ => rfl) fun f => ?_
  rw [Cursor.shift, commits_shift]
  split <;> rfl

theorem manyUpTo (ha : Shifts k a) (bound : Nat) : Shifts k (e.manyUpTo a bound) := by
  induction bound with
  | zero => exact fun _ => rfl
  | succ bound ih =>
    intro c
    rw [fst_manyUpTo_succ, fst_manyUpTo_succ, ha]
    refine Outcome.shift_handle (fun x next _ => ?_) fun f => ?_
    · simp only [Cursor.shift, Nat.add_right_cancel_iff]
      split
      · rfl
      · exact (congrArg _ (ih next)).trans (Outcome.shift_map _).symm
    · rw [Cursor.shift, commits_shift]
      split <;> rfl

theorem followersUpTo (ha : Shifts k a) (bound : Nat) : Shifts k (e.followersUpTo a bound) := by
  induction bound with
  | zero => exact fun _ => rfl
  | succ bound ih =>
    intro c
    rw [fst_followersUpTo_succ, fst_followersUpTo_succ, ha]
    refine Outcome.shift_handle (fun x next _ => ?_) fun f => ?_
    · simp only [Cursor.shift, Nat.add_right_cancel_iff]
      split
      · rfl
      · exact (congrArg _ (ih next)).trans (Outcome.shift_map _).symm
    · rw [Cursor.shift, commits_shift]
      split <;> rfl

theorem sepBy1 (ha : Shifts k a) (hb : Shifts k b) : Shifts k (e.sepBy1 a b) := fun c => by
  rw [fst_sepBy1, fst_sepBy1, ha]
  refine Outcome.shift_handle (fun x mid _ => ?_) fun _ => rfl
  exact (congrArg _ ((((hb.both ha).map Prod.snd).followersUpTo _) mid)).trans
    (Outcome.shift_map _).symm

theorem nested (ha : Shifts k a) : Shifts k (e.nested a) := fun c => by
  have inside : (a ⟨c.pos + k, c.rest, c.depth + 1⟩ ()).1 = _ := ha ⟨c.pos, c.rest, c.depth + 1⟩
  rw [fst_nested, fst_nested]
  by_cases deep : e.maxDepth ≤ c.depth
  · rw [if_pos deep, if_pos (by exact deep)]
    rfl
  · rw [if_neg deep, if_neg (by exact deep)]
    exact inside ▸ Outcome.shift_handle (fun _ _ _ => rfl) fun _ => rfl

end Shifts

theorem shifts_relation (e : Engine Unit) (grammar : ∀ {β : Type}, N β → Rule N β) (k : Nat) :
    RunRelation e e grammar fun _ a _ => Shifts k a where
  token t := .token t
  atEnd := .atEnd
  unanswered _ _ := rfl
  call ha := ha
  map f ha := ha.map f
  convert f ha := ha.convert f
  both ha hb := ha.both hb
  either ha hb := ha.either hb
  optional ha := ha.optional
  many ha c := ha.manyUpTo _ c
  sepBy1 ha hb := ha.sepBy1 hb
  nested ha := ha.nested

end Engine

namespace Rule

variable {calls k : Nat} {r : DdlRule α} {c next : Cursor}

theorem read_shift (calls k : Nat) (r : DdlRule α) (c : Cursor) :
    r.read calls (c.shift k) = (r.read calls c).shift k :=
  (Engine.shifts_relation (Engine.standard Keywords.mysql).silent Nonterminal.rule k).run calls r c

/-- The outcome at any place comes from the one at the front of a text. -/
theorem read_eq_shift (calls p : Nat) (r : DdlRule α) (rest : List Token) (depth : Nat) :
    r.read calls ⟨p, rest, depth⟩ = (r.read calls ⟨0, rest, depth⟩).shift p := by
  rw [← read_shift, Cursor.shift, Nat.zero_add]

/-- What is read at one place is read at every other. -/
theorem read_from {x : α} (read : r.read calls c = .matched x next) (p : Nat) :
    r.read calls ⟨p, c.rest, c.depth⟩ =
      .matched x ⟨p + (next.pos - c.pos), next.rest, next.depth⟩ := by
  have here := read_eq_shift calls c.pos r c.rest c.depth
  rw [read] at here
  rw [read_eq_shift]
  cases front : r.read calls ⟨0, c.rest, c.depth⟩ with
  | matched y mid =>
    rw [front] at here
    obtain ⟨rfl, rfl⟩ := Outcome.matched.inj here
    simp [Outcome.shift, Cursor.shift, Nat.add_comm]
  | failed f => simp [front, Outcome.shift] at here
  | diverged => simp [front, Outcome.shift] at here

theorem FailsEarly.from (early : r.FailsEarly calls c) (p : Nat) :
    r.FailsEarly calls ⟨p, c.rest, c.depth⟩ := by
  obtain ⟨f, failed, near⟩ := early
  have here := read_eq_shift calls c.pos r c.rest c.depth
  rw [failed] at here
  cases front : r.read calls ⟨0, c.rest, c.depth⟩ with
  | failed g =>
    rw [front] at here
    obtain rfl := Outcome.failed.inj here
    refine ⟨g.shift p, by rw [read_eq_shift, front]; rfl, ?_⟩
    simp only [Failure.shift] at near ⊢
    omega
  | matched y mid => simp [front, Outcome.shift] at here
  | diverged => simp [front, Outcome.shift] at here

end Rule
end TableDdl
