import TableDdl.Proofs.Grammar.Progress

/-!
# The furthest failure

The parser's notes are the furthest failure met so far. Notes only grow, and a failed attempt
has its own failure in its notes: they are further, or at the same token with all that was
expected there.
-/
namespace TableDdl

variable {N : Type → Type} {σ α β : Type}

/-- The number of tokens up to the furthest failure, that one included. -/
def looked (notes : Option Failure) : Nat := notes.elim 0 (·.pos + 1)

@[simp] theorem looked_furthest (notes : Option Failure) (f : Failure) :
    looked (Failure.furthest notes f) = max (looked notes) (f.pos + 1) := by
  cases notes with
  | none => simp [looked, Failure.furthest]
  | some g =>
    simp only [looked, Failure.furthest, Option.elim_some, Failure.deeper_pos]
    omega

namespace Failure

/-- `g` is further than `f`, or at the same token with all that `f` expects there. -/
def Covers (g f : Failure) : Prop := f.pos ≤ g.pos ∧ (f.pos = g.pos → f.expected ⊆ g.expected)

variable {f g h : Failure}

theorem Covers.refl (f : Failure) : f.Covers f := ⟨Nat.le_refl _, fun _ => List.Subset.refl _⟩

theorem Covers.trans (hg : h.Covers g) (gf : g.Covers f) : h.Covers f := by
  refine ⟨Nat.le_trans gf.1 hg.1, fun same => ?_⟩
  have first : f.pos = g.pos := Nat.le_antisymm gf.1 (same ▸ hg.1)
  exact List.Subset.trans (gf.2 first) (hg.2 (first ▸ same))

theorem deeper_cases (f g : Failure) : f.pos < g.pos ∧ f.deeper g = g ∨
    g.pos < f.pos ∧ f.deeper g = f ∨
    f.pos = g.pos ∧ f.deeper g = ⟨f.pos, appendNew f.expected g.expected⟩ := by
  unfold deeper
  split
  · exact .inl ⟨‹_›, rfl⟩
  · split
    · exact .inr (.inl ⟨‹_›, rfl⟩)
    · exact .inr (.inr ⟨by omega, rfl⟩)

theorem deeper_covers (f g : Failure) : (f.deeper g).Covers f ∧ (f.deeper g).Covers g := by
  rcases deeper_cases f g with ⟨lt, same⟩ | ⟨lt, same⟩ | ⟨tie, same⟩
  · rw [same]
    exact ⟨⟨Nat.le_of_lt lt, fun tie => absurd tie (Nat.ne_of_lt lt)⟩, .refl g⟩
  · rw [same]
    exact ⟨.refl f, ⟨Nat.le_of_lt lt, fun tie => absurd tie (Nat.ne_of_lt lt)⟩⟩
  · rw [same]
    exact ⟨⟨Nat.le_refl _, fun _ _ hx => mem_appendNew.2 (.inl hx)⟩,
      ⟨Nat.le_of_eq tie.symm, fun _ _ hx => mem_appendNew.2 (.inr hx)⟩⟩

/-- What covers two failures covers the deeper one of them. -/
theorem Covers.deeper (hf : h.Covers f) (hg : h.Covers g) : h.Covers (f.deeper g) := by
  rcases deeper_cases f g with ⟨-, same⟩ | ⟨-, same⟩ | ⟨tie, same⟩
  · rwa [same]
  · rwa [same]
  · rw [same]
    refine ⟨hf.1, fun at' x hx => ?_⟩
    rcases mem_appendNew.1 hx with hx | hx
    · exact hf.2 at' hx
    · exact hg.2 (tie ▸ at') hx

end Failure

/-- The failure is in the notes. -/
def Held (notes : Option Failure) (f : Failure) : Prop := ∃ g ∈ notes, g.Covers f

theorem Held.pos_lt {notes : Option Failure} {f : Failure} (h : Held notes f) :
    f.pos < looked notes := by
  obtain ⟨g, rfl, covers⟩ := h
  exact Nat.lt_succ_of_le covers.1

theorem Held.furthest {notes : Option Failure} {f : Failure} (h : Held notes f) (g : Failure) :
    Held (Failure.furthest notes g) f := by
  obtain ⟨seen, rfl, covers⟩ := h
  exact ⟨_, rfl, (Failure.deeper_covers seen g).1.trans covers⟩

theorem Held.deeper {notes : Option Failure} {f g : Failure} (hf : Held notes f)
    (hg : Held notes g) : Held notes (f.deeper g) := by
  obtain ⟨seen, rfl, covers⟩ := hf
  obtain ⟨_, ⟨⟩, covers'⟩ := hg
  exact ⟨seen, rfl, covers.deeper covers'⟩

theorem held_furthest (notes : Option Failure) (f : Failure) :
    Held (Failure.furthest notes f) f := by
  cases notes with
  | none => exact ⟨f, rfl, .refl f⟩
  | some g => exact ⟨_, rfl, (Failure.deeper_covers g f).2⟩

namespace Engine

/-- An outcome whose notes grew from earlier ones and hold its failure. -/
def Tracks (notes : Option Failure) (answer : Outcome α × Option Failure) : Prop :=
  (∀ f, Held notes f → Held answer.2 f) ∧ ∀ f, answer.1 = .failed f → Held answer.2 f

namespace Tracks

variable {notes mid : Option Failure}

theorem looked_le {answer : Outcome α × Option Failure} (h : Tracks notes answer) :
    looked notes ≤ looked answer.2 := by
  cases notes with
  | none => exact Nat.zero_le _
  | some f => exact (h.1 f ⟨f, rfl, .refl f⟩).pos_lt

theorem of_grown {answer : Outcome α × Option Failure} (h : Tracks mid answer)
    (grown : ∀ f, Held notes f → Held mid f) : Tracks notes answer :=
  ⟨fun f held => h.1 f (grown f held), h.2⟩

theorem matched (x : α) (next : Cursor) : Tracks notes (.matched x next, notes) :=
  ⟨fun _ => id, nofun⟩

theorem diverged : Tracks notes ((.diverged, notes) : Outcome α × Option Failure) :=
  ⟨fun _ => id, nofun⟩

theorem failed {f : Failure} (h : Held notes f) :
    Tracks notes ((.failed f, notes) : Outcome α × Option Failure) := by
  refine ⟨fun _ => id, fun g same => ?_⟩
  obtain rfl := Outcome.failed.inj same
  exact h

theorem fail {e : Engine (Option Failure)} (note : e.note = Failure.furthest)
    (expected : Expected) (c : Cursor) : Tracks notes (e.fail (α := α) expected c notes) := by
  simp only [Engine.fail, note]
  exact of_grown (failed (held_furthest _ _)) fun _ held => held.furthest _

theorem follow {answer : Outcome α × Option Failure}
    {k : α → Cursor → Option Failure → Outcome β × Option Failure}
    {r : Failure → Option Failure → Outcome β × Option Failure} (h : Tracks notes answer)
    (matched : ∀ x next mid, answer = (.matched x next, mid) → Tracks mid (k x next mid))
    (failed : ∀ f mid, answer = (.failed f, mid) → Held mid f → Tracks mid (r f mid)) :
    Tracks notes (Engine.follow answer k r) := by
  rcases answer with ⟨x | f | _, mid⟩
  · exact (matched _ _ _ rfl).of_grown h.1
  · exact (failed f mid rfl (h.2 f rfl)).of_grown h.1
  · exact diverged.of_grown h.1

end Tracks

/-- The attempt moves forward, and its notes keep track of it. -/
structure Noting (a : Attempt (Option Failure) α) (a' : Attempt Unit α) : Prop where
  same : SameOutcome a a'
  forward : Forward a'
  tracks : ∀ c notes, Tracks notes (a c notes)

namespace Noting

variable {e : Engine (Option Failure)} {a : Attempt (Option Failure) α} {a' : Attempt Unit α}
  {b : Attempt (Option Failure) β} {b' : Attempt Unit β} {c next : Cursor}
  {notes notes' : Option Failure} {x : α} {f : Failure}

theorem reaches (h : Noting a a') (run : a c notes = (.matched x next, notes')) :
    c.Reaches next :=
  h.forward.reaches ((h.same c notes ()).symm.trans (by rw [run]))

theorem looked_le (h : Noting a a') {o : Outcome α} (run : a c notes = (o, notes')) :
    looked notes ≤ looked notes' := by
  have := (h.tracks c notes).looked_le
  rwa [run] at this

theorem held (h : Noting a a') (run : a c notes = (.failed f, notes')) : Held notes' f := by
  have := (h.tracks c notes).2 f
  rw [run] at this
  exact this rfl

theorem failure_lt (h : Noting a a') (run : a c notes = (.failed f, notes')) :
    f.pos < looked notes' :=
  (h.held run).pos_lt

theorem le_failure (h : Noting a a') (run : a c notes = (.failed f, notes')) : c.pos ≤ f.pos :=
  (h.forward.failure ((h.same c notes ()).symm.trans (by rw [run]))).1

theorem map_tracks (f : α → β) (h : Noting a a') (c : Cursor) (notes : Option Failure) :
    Tracks notes (Engine.map f a c notes) := by
  rw [map_eq]
  exact (h.tracks c notes).follow (fun _ _ _ _ => .matched _ _) fun _ _ _ held => .failed held

theorem map (f : α → β) (h : Noting a a') : Noting (Engine.map f a) (Engine.map f a') :=
  ⟨h.same.map f, h.forward.map f, h.map_tracks f⟩

theorem both (ha : Noting a a') (hb : Noting b b') :
    Noting (Engine.both a b) (Engine.both a' b') := by
  refine ⟨ha.same.both hb.same, ha.forward.both hb.forward, fun c notes => ?_⟩
  rw [both_eq]
  exact (ha.tracks c notes).follow (fun _ _ _ _ => hb.map_tracks _ _ _) fun _ _ _ held => .failed held

/-- The second alternative, after the first has failed early. -/
theorem alternative_tracks (h : Noting a a') (c : Cursor) (held : Held notes f) :
    Tracks notes (follow (a c notes) (fun x next notes => (.matched x next, notes))
      fun g notes => (.failed (if e.commits c.pos g then g else f.deeper g), notes)) := by
  refine (h.tracks c notes).follow (fun _ _ _ _ => .matched _ _) fun g mid run later => .failed ?_
  split
  · exact later
  · have grown := (h.tracks c notes).1 f held
    rw [run] at grown
    exact grown.deeper later

theorem either {b : Attempt (Option Failure) α} {b' : Attempt Unit α} (ha : Noting a a')
    (hb : Noting b b') : Noting (e.either a b) (e.silent.either a' b') := by
  refine ⟨ha.same.either hb.same, ha.forward.either hb.forward, fun c notes => ?_⟩
  rw [either_eq]
  refine (ha.tracks c notes).follow (fun _ _ _ _ => .matched _ _) fun f mid _ held => ?_
  split
  · exact .failed held
  · exact hb.alternative_tracks c held

theorem manyUpTo (h : Noting a a') (bound : Nat) :
    Noting (e.manyUpTo a bound) (e.silent.manyUpTo a' bound) := by
  induction bound with
  | zero => exact ⟨fun _ _ _ => rfl, fun _ => trivial, fun _ _ => .diverged⟩
  | succ bound ih =>
    refine ⟨h.same.manyUpTo _, h.forward.manyUpTo _, fun c notes => ?_⟩
    rw [manyUpTo_succ_eq]
    refine (h.tracks c notes).follow (fun x next mid _ => ?_) fun f mid _ held => ?_
    · split
      · exact .matched _ _
      · exact ih.map_tracks _ _ _
    · split
      · exact .failed held
      · exact .matched _ _

theorem followersUpTo (h : Noting a a') (bound : Nat) :
    Noting (e.followersUpTo a bound) (e.silent.followersUpTo a' bound) := by
  induction bound with
  | zero => exact ⟨fun _ _ _ => rfl, fun _ => trivial, fun _ _ => .diverged⟩
  | succ bound ih =>
    refine ⟨h.same.followersUpTo _, h.forward.followersUpTo _, fun c notes => ?_⟩
    rw [followersUpTo_succ_eq]
    refine (h.tracks c notes).follow (fun x next mid _ => ?_) fun f mid _ held => ?_
    · split
      · exact .diverged
      · exact ih.map_tracks _ _ _
    · split
      · exact .failed held
      · exact .matched _ _

theorem sepBy1 (ha : Noting a a') (hb : Noting b b') :
    Noting (e.sepBy1 a b) (e.silent.sepBy1 a' b') := by
  refine ⟨ha.same.sepBy1 hb.same, ha.forward.sepBy1 hb.forward, fun c notes => ?_⟩
  rw [sepBy1_eq]
  refine (ha.tracks c notes).follow (fun x next mid _ => ?_) fun _ _ _ held => .failed held
  exact (((hb.both ha).map Prod.snd).followersUpTo _).map_tracks _ _ _

end Noting

theorem noting_relation {e : Engine (Option Failure)} (note : e.note = Failure.furthest)
    (grammar : ∀ {β : Type}, N β → Rule N β) :
    RunRelation e e.silent grammar fun _ a a' => Noting a a' where
  token t := by
    refine ⟨(sameOutcome_silent e grammar).token t, (forward_relation _ grammar).token t,
      fun c notes => ?_⟩
    simp only [token]
    split
    · exact .fail note _ _
    · split
      · exact .matched _ _
      · exact .fail note _ _
  atEnd := by
    refine ⟨(sameOutcome_silent e grammar).atEnd, (forward_relation _ grammar).atEnd,
      fun c notes => ?_⟩
    simp only [atEnd]
    split
    · exact .matched _ _
    · exact .fail note _ _
  unanswered _ := ⟨fun _ _ _ => rfl, fun _ => trivial, fun _ _ => .diverged⟩
  call h := h
  map f h := h.map f
  convert {_ _ r _ _} f h := by
    refine ⟨(sameOutcome_silent e grammar).convert (r := r) f h.same, h.forward.convert f,
      fun c notes => ?_⟩
    rw [convert_eq]
    refine (h.tracks c notes).follow (fun x next mid _ => ?_) fun _ _ _ held => .failed held
    split
    · exact .matched _ _
    · exact .fail note _ _
  both ha hb := ha.both hb
  either ha hb := ha.either hb
  optional {_ r _ _} h := by
    refine ⟨(sameOutcome_silent e grammar).optional (r := r) h.same, h.forward.optional,
      fun c notes => ?_⟩
    rw [optional_eq]
    refine (h.tracks c notes).follow (fun _ _ _ _ => .matched _ _) fun f mid _ held => ?_
    split
    · exact .failed held
    · exact .matched _ _
  many {_ r _ _} h :=
    ⟨(sameOutcome_silent e grammar).many (r := r) h.same, fun c => h.forward.manyUpTo _ c,
      fun c notes => (h.manyUpTo _).tracks c notes⟩
  sepBy1 ha hb := ha.sepBy1 hb
  nested {_ r _ _} h := by
    refine ⟨(sameOutcome_silent e grammar).nested (r := r) h.same, h.forward.nested, fun c notes => ?_⟩
    rw [nested_eq]
    split
    · exact .fail note _ _
    · exact (h.tracks _ notes).follow (fun _ _ _ _ => .matched _ _) fun _ _ _ held => .failed held

end Engine
end TableDdl
