import TableDdl.Parser
import TableDdl.Proofs.Grammar.Progress

/-!
# Other limits of nesting

What a rule of the language reads where another limit of nesting takes the place of the parser's.
Main statement: a reading that comes to an end is the same with more calls.
-/
namespace TableDdl

variable {N : Type → Type} {σ α β : Type}

namespace Engine

/-- The engine with another limit of nesting. -/
def limited (e : Engine σ) (limit : Nat) : Engine σ := { e with maxDepth := limit }

end Engine

/-- The answer for a rule with a limit of nesting, with at most `calls` named rules inside each
other. -/
def Rule.readTo (limit calls : Nat) (r : DdlRule α) (c : Cursor) : Outcome α :=
  ((Engine.standard Keywords.mysql).limited limit).answer Nonterminal.rule calls r c

namespace Rule

variable {limit calls : Nat} {r : DdlRule α} {s : DdlRule β} {c next : Cursor}

theorem commits_limited_iff (start : Nat) (f : Failure) :
    ((Engine.standard Keywords.mysql).limited limit).silent.commits start f = true ↔
      start + 1 < f.pos := by
  simp [Engine.commits, Engine.silent, Engine.standard, Engine.limited]

theorem forward_readTo (limit calls : Nat) (r : DdlRule α) :
    Engine.Forward (((Engine.standard Keywords.mysql).limited limit).silent.run
      Nonterminal.rule calls r) :=
  Engine.forward_run _ _ _ _

theorem reaches_of_readTo {x : α} (h : r.readTo limit calls c = .matched x next) :
    c.Reaches next :=
  (forward_readTo limit calls r).reaches h

theorem depth_of_readTo {x : α} (h : r.readTo limit calls c = .matched x next) :
    next.depth = c.depth := by
  obtain ⟨_, _, _, same⟩ := reaches_of_readTo h
  exact same

theorem le_of_readTo_failed {f : Failure} (h : r.readTo limit calls c = .failed f) :
    c.pos ≤ f.pos :=
  ((forward_readTo limit calls r).failure h).1

theorem readTo_token (t : Terminal) : (Rule.token t : DdlRule String).readTo limit calls c =
    match c.rest with
    | [] => .failed ⟨c.pos, [t.expected]⟩
    | first :: rest => match t.accept Keywords.mysql first with
      | some value => .matched value ⟨c.pos + 1, rest, c.depth⟩
      | none => .failed ⟨c.pos, [t.expected]⟩ := by
  simp only [readTo, Engine.answer, Engine.run_token, Engine.token, Engine.fail]
  cases c.rest with
  | nil => rfl
  | cons first rest =>
    simp only [Engine.silent, Engine.standard, Engine.limited]
    cases t.accept Keywords.mysql first <;> rfl

theorem readTo_atEnd : (Rule.atEnd : DdlRule Unit).readTo limit calls c =
    if c.rest.isEmpty then .matched () c else .failed ⟨c.pos, [.endOfInput]⟩ := by
  simp only [readTo, Engine.answer, Engine.run_atEnd, Engine.atEnd, Engine.fail]
  split <;> rfl

theorem readTo_map (f : α → β) :
    (Rule.map f r).readTo limit calls c = (r.readTo limit calls c).map f := by
  simp only [readTo, Engine.answer, Engine.run_map, Engine.fst_map]

theorem readTo_both : (Rule.both r s).readTo limit calls c =
    (r.readTo limit calls c).handle (fun x mid => (s.readTo limit calls mid).map (x, ·))
      .failed := by
  simp only [readTo, Engine.answer, Engine.run_both, Engine.fst_both]

theorem readTo_convert (f : α → Except String β) : (Rule.convert f r).readTo limit calls c =
    (r.readTo limit calls c).handle (fun x next => match f x with
      | .ok y => .matched y next
      | .error reason => .failed ⟨c.pos, [.invalid reason]⟩) .failed := by
  simp only [readTo, Engine.answer, Engine.run_convert]
  exact Engine.fst_convert _ _ _ _

theorem readTo_either (s : DdlRule α) : (Rule.either r s).readTo limit calls c =
    (r.readTo limit calls c).handle .matched fun f =>
      if c.pos + 1 < f.pos then .failed f
      else (s.readTo limit calls c).handle .matched fun g =>
        .failed (if c.pos + 1 < g.pos then g else f.deeper g) := by
  simp only [readTo, Engine.answer, Engine.run_either, Engine.fst_either, commits_limited_iff]

theorem readTo_optional : (Rule.optional r).readTo limit calls c =
    (r.readTo limit calls c).handle (fun x next => .matched (some x) next) fun f =>
      if c.pos + 1 < f.pos then .failed f else .matched none c := by
  simp only [readTo, Engine.answer, Engine.run_optional, Engine.fst_optional,
    commits_limited_iff]

theorem readTo_many : (Rule.many r).readTo limit calls c =
    (r.readTo limit calls c).handle (fun x next =>
      if next.pos = c.pos then .matched [] c
      else ((Rule.many r).readTo limit calls next).map (x :: ·))
      fun f => if c.pos + 1 < f.pos then .failed f else .matched [] c := by
  simp only [readTo, Engine.answer, Engine.run_many]
  rw [Engine.fst_many (forward_readTo limit calls r)]
  simp only [commits_limited_iff]

theorem repeats_readTo_many :
    Repeats (r.readTo limit calls) (.matched []) ((Rule.many r).readTo limit calls) := fun _ =>
  readTo_many

/-- What follows the first item of a list. -/
def followersTo (limit calls : Nat) (r : DdlRule α) (c : Cursor) : Outcome (List α) :=
  (((Engine.standard Keywords.mysql).limited limit).silent.followersUpTo
    (((Engine.standard Keywords.mysql).limited limit).silent.run Nonterminal.rule calls r)
    (c.rest.length + 1) c ()).1

theorem repeats_followersTo :
    Repeats (r.readTo limit calls) (fun _ => .diverged) (followersTo limit calls r) := fun c => by
  rw [followersTo, Engine.fst_followers (forward_readTo limit calls r)]
  simp only [commits_limited_iff]
  rfl

theorem readTo_sepBy1 : (Rule.sepBy1 r s).readTo limit calls c =
    (r.readTo limit calls c).handle
      (fun x next => (followersTo limit calls (s *> r) next).map (x :: ·)) .failed := by
  have round : ((Engine.standard Keywords.mysql).limited limit).silent.run Nonterminal.rule calls
      (s *> r) = Engine.map Prod.snd (Engine.both
        (((Engine.standard Keywords.mysql).limited limit).silent.run Nonterminal.rule calls s)
        (((Engine.standard Keywords.mysql).limited limit).silent.run Nonterminal.rule calls
          r)) := by
    rw [← Engine.run_both, ← Engine.run_map]
    rfl
  simp only [readTo, followersTo, round, Engine.answer, Engine.run_sepBy1, Engine.fst_sepBy1]

theorem readTo_nested : (Rule.nested r).readTo limit calls c =
    if limit ≤ c.depth then .failed ⟨c.pos, [.invalid "nesting too deep"]⟩
    else (r.readTo limit calls { c with depth := c.depth + 1 }).handle
      (fun x next => .matched x { next with depth := c.depth }) .failed := by
  simp only [readTo, Engine.answer, Engine.run_nested]
  exact Engine.fst_nested _ _ _

theorem readTo_both_matched {p : α × β} : (Rule.both r s).readTo limit calls c = .matched p next ↔
    ∃ x mid y, r.readTo limit calls c = .matched x mid ∧
      s.readTo limit calls mid = .matched y next ∧ (x, y) = p := by
  rw [readTo_both]
  cases first : r.readTo limit calls c with
  | matched x mid =>
    simp only [Outcome.handle_matched, Outcome.map_eq_matched_iff, Outcome.matched.injEq]
    constructor
    · rintro ⟨y, second, rfl⟩
      exact ⟨x, mid, y, ⟨rfl, rfl⟩, second, rfl⟩
    · rintro ⟨_, _, y, ⟨rfl, rfl⟩, second, rfl⟩
      exact ⟨y, second, rfl⟩
  | failed f => simp
  | diverged => simp

theorem readTo_either_matched {s : DdlRule α} {x : α} :
    (Rule.either r s).readTo limit calls c = .matched x next ↔
      r.readTo limit calls c = .matched x next ∨
        ∃ f, r.readTo limit calls c = .failed f ∧ f.pos ≤ c.pos + 1 ∧
          s.readTo limit calls c = .matched x next := by
  rw [readTo_either]
  cases first : r.readTo limit calls c with
  | matched y mid => simp
  | failed f =>
    by_cases late : c.pos + 1 < f.pos
    · simp [late, Nat.not_le.2 late]
    · cases s.readTo limit calls c <;> simp [late, Nat.not_lt.1 late]
  | diverged => simp

theorem readTo_optional_matched {o : Option α} :
    (Rule.optional r).readTo limit calls c = .matched o next ↔
      (∃ x, r.readTo limit calls c = .matched x next ∧ some x = o) ∨
        ∃ f, r.readTo limit calls c = .failed f ∧ f.pos ≤ c.pos + 1 ∧ none = o ∧ c = next := by
  rw [readTo_optional]
  cases first : r.readTo limit calls c with
  | matched y mid =>
    cases o with
    | none => simp
    | some x => simp
  | failed f =>
    by_cases late : c.pos + 1 < f.pos
    · simp [late, Nat.not_le.2 late]
    · simp [late, Nat.not_lt.1 late]
  | diverged => simp

theorem readTo_sepBy1_matched {xs : List α} :
    (Rule.sepBy1 r s).readTo limit calls c = .matched xs next ↔
      ∃ x mid ys, r.readTo limit calls c = .matched x mid ∧
        followersTo limit calls (s *> r) mid = .matched ys next ∧ x :: ys = xs := by
  rw [readTo_sepBy1]
  cases first : r.readTo limit calls c with
  | matched x mid =>
    simp only [Outcome.handle_matched, Outcome.map_eq_matched_iff, Outcome.matched.injEq]
    constructor
    · rintro ⟨ys, later, rfl⟩
      exact ⟨x, mid, ys, ⟨rfl, rfl⟩, later, rfl⟩
    · rintro ⟨_, _, ys, ⟨rfl, rfl⟩, later, rfl⟩
      exact ⟨ys, later, rfl⟩
  | failed f => simp
  | diverged => simp

theorem readTo_nested_matched {x : α} :
    (Rule.nested r).readTo limit calls c = .matched x next ↔
      c.depth < limit ∧ ∃ inner, r.readTo limit calls { c with depth := c.depth + 1 } =
        .matched x inner ∧ { inner with depth := c.depth } = next := by
  rw [readTo_nested]
  by_cases deep : limit ≤ c.depth
  · simp [deep, Nat.not_lt.2 deep]
  · simp only [deep, if_false, Nat.not_le.1 deep, true_and]
    cases r.readTo limit calls { c with depth := c.depth + 1 } <;> simp [and_assoc]

theorem le_of_followersTo {xs : List α} (h : followersTo limit calls r c = .matched xs next) :
    c.pos ≤ next.pos :=
  (((forward_readTo limit calls r).followersUpTo _).reaches h).le

/-- An option fails only where what is optional fails late. -/
theorem readTo_optional_failed {f : Failure} (h : r.optional.readTo limit calls c = .failed f) :
    c.pos + 1 < f.pos := by
  rw [readTo_optional] at h
  cases first : r.readTo limit calls c with
  | matched x next => simp [first] at h
  | failed g =>
    rw [first, Outcome.handle_failed] at h
    split at h
    · obtain rfl : g = f := by simpa using h
      assumption
    · cases h
  | diverged => simp [first] at h

theorem lt_of_many_readTo_failed {f : Failure} (h : r.many.readTo limit calls c = .failed f) :
    c.pos + 1 < f.pos :=
  repeats_readTo_many.late (forward_readTo limit calls r) nofun h

theorem lt_of_followersTo_failed {f : Failure} (h : followersTo limit calls r c = .failed f) :
    c.pos + 1 < f.pos :=
  repeats_followersTo.late (forward_readTo limit calls r) nofun h

/-- Where a choice fails early, both alternatives do. -/
theorem readTo_either_failed {s : DdlRule α} {f : Failure}
    (h : (Rule.either r s).readTo limit calls c = .failed f) (near : f.pos ≤ c.pos + 1) :
    ∃ g g', r.readTo limit calls c = .failed g ∧ s.readTo limit calls c = .failed g' ∧
      g.deeper g' = f := by
  rw [readTo_either] at h
  cases first : r.readTo limit calls c with
  | matched x next => simp [first] at h
  | failed g =>
    rw [first, Outcome.handle_failed] at h
    split at h
    · obtain rfl : g = f := by simpa using h
      omega
    · cases second : s.readTo limit calls c with
      | matched x next => simp [second] at h
      | failed g' =>
        rw [second, Outcome.handle_failed, Outcome.failed.injEq] at h
        split at h
        · subst h
          omega
        · exact ⟨g, g', rfl, rfl, h⟩
      | diverged => simp [second] at h
  | diverged => simp [first] at h

end Rule

namespace Outcome

/-- The outcome is the other one, if it is one at all. -/
def LessDefined (o o' : Outcome α) : Prop := o = .diverged ∨ o' = o

theorem matched_ne_diverged {x : α} {next : Cursor} : Outcome.matched x next ≠ .diverged := nofun

theorem failed_ne_diverged {g : Failure} : (Outcome.failed g : Outcome α) ≠ .diverged := nofun

theorem handle_ne_diverged {o : Outcome α} {m : α → Cursor → Outcome β}
    {f : Failure → Outcome β} (h : o ≠ .diverged)
    (matched : ∀ x next, o = .matched x next → m x next ≠ .diverged)
    (failed : ∀ g, f g ≠ .diverged) : o.handle m f ≠ .diverged := by
  cases o with
  | matched x next => exact matched x next rfl
  | failed g => exact failed g
  | diverged => exact absurd rfl h

theorem map_ne_diverged {o : Outcome α} {f : α → β} (h : o ≠ .diverged) : o.map f ≠ .diverged :=
  handle_ne_diverged h (fun _ _ _ => matched_ne_diverged) fun _ => failed_ne_diverged

namespace LessDefined

variable {o o' : Outcome α}

theorem refl (o : Outcome α) : o.LessDefined o := .inr rfl

theorem handle {m m' : α → Cursor → Outcome β} {f f' : Failure → Outcome β}
    (h : o.LessDefined o') (matched : ∀ x next, (m x next).LessDefined (m' x next))
    (failed : ∀ g, (f g).LessDefined (f' g)) : (o.handle m f).LessDefined (o'.handle m' f') := by
  rcases h with rfl | rfl
  · exact .inl rfl
  · cases o' with
    | matched x next => exact matched x next
    | failed g => exact failed g
    | diverged => exact .inl rfl

theorem map (f : α → β) (h : o.LessDefined o') : (o.map f).LessDefined (o'.map f) :=
  h.handle (fun _ _ => .refl _) fun _ => .refl _

theorem ite {p : Prop} [Decidable p] {u u' : Outcome α} (h : o.LessDefined o')
    (h' : u.LessDefined u') : (if p then o else u).LessDefined (if p then o' else u') := by
  split
  · exact h
  · exact h'

end LessDefined
end Outcome

namespace Engine

/-- The first attempt comes to the same as the second, if it comes to an end. -/
def LessDefined (a a' : Attempt Unit α) : Prop := ∀ c, (a c ()).1.LessDefined (a' c ()).1

namespace LessDefined

variable {e : Engine Unit} {a a' : Attempt Unit α} {b b' : Attempt Unit β}

theorem map (f : α → β) (ha : LessDefined a a') :
    LessDefined (Engine.map f a) (Engine.map f a') := fun c => by
  simp only [fst_map]
  exact (ha c).map f

theorem both (ha : LessDefined a a') (hb : LessDefined b b') :
    LessDefined (Engine.both a b) (Engine.both a' b') := fun c => by
  simp only [fst_both]
  exact (ha c).handle (fun x mid => (hb mid).map _) fun _ => .refl _

theorem either {b b' : Attempt Unit α} (ha : LessDefined a a') (hb : LessDefined b b') :
    LessDefined (e.either a b) (e.either a' b') := fun c => by
  simp only [fst_either]
  exact (ha c).handle (fun _ _ => .refl _) fun _ =>
    .ite (.refl _) ((hb c).handle (fun _ _ => .refl _) fun _ => .refl _)

theorem manyUpTo (ha : LessDefined a a') (bound : Nat) :
    LessDefined (e.manyUpTo a bound) (e.manyUpTo a' bound) := by
  induction bound with
  | zero => exact fun _ => .refl _
  | succ bound ih =>
    intro c
    simp only [fst_manyUpTo_succ]
    exact (ha c).handle (fun _ next => .ite (.refl _) ((ih next).map _)) fun _ =>
      .ite (.refl _) (.refl _)

theorem followersUpTo (ha : LessDefined a a') (bound : Nat) :
    LessDefined (e.followersUpTo a bound) (e.followersUpTo a' bound) := by
  induction bound with
  | zero => exact fun _ => .refl _
  | succ bound ih =>
    intro c
    simp only [fst_followersUpTo_succ]
    exact (ha c).handle (fun _ next => .ite (.refl _) ((ih next).map _)) fun _ =>
      .ite (.refl _) (.refl _)

end LessDefined

theorem lessDefined_relation (e : Engine Unit) (grammar : ∀ {β : Type}, N β → Rule N β) :
    RunRelation e e grammar fun _ a a' => LessDefined a a' where
  token _ _ := .refl _
  atEnd _ := .refl _
  unanswered _ _ := .refl _
  call ha := ha
  map f ha := ha.map f
  convert f ha c := by
    simp only [fst_convert]
    exact (ha c).handle (fun _ _ => .refl _) fun _ => .refl _
  both ha hb := ha.both hb
  either ha hb := ha.either hb
  optional ha c := by
    simp only [fst_optional]
    exact (ha c).handle (fun _ _ => .refl _) fun _ => .ite (.refl _) (.refl _)
  many ha c := ha.manyUpTo _ c
  sepBy1 ha hb c := by
    simp only [fst_sepBy1]
    exact (ha c).handle (fun _ next => (((hb.both ha).map Prod.snd).followersUpTo _ next).map _)
      fun _ => .refl _
  nested ha c := by
    simp only [fst_nested]
    exact .ite (.refl _) ((ha _).handle (fun _ _ => .refl _) fun _ => .refl _)

theorem lessDefined_run (e : Engine Unit) (grammar : ∀ {β : Type}, N β → Rule N β)
    {calls calls' : Nat} (le : calls ≤ calls') (r : Rule N α) :
    LessDefined (e.run grammar calls r) (e.run grammar calls' r) := by
  induction calls generalizing calls' α with
  | zero =>
    cases calls' with
    | zero => exact fun _ => .refl _
    | succ calls' =>
      exact (lessDefined_relation e grammar).attempt (fun _ _ => .inl rfl) r
  | succ calls ih =>
    obtain ⟨calls', rfl⟩ : ∃ k, calls' = k + 1 := ⟨calls' - 1, by omega⟩
    exact (lessDefined_relation e grammar).attempt
      (fun name => ih (Nat.le_of_succ_le_succ le) (grammar name)) r

end Engine

/-- A reading that comes to an end is the same with more calls. -/
theorem Rule.readTo_mono {limit calls calls' : Nat} (le : calls ≤ calls') {r : DdlRule α}
    {c : Cursor} (ends : r.readTo limit calls c ≠ .diverged) :
    r.readTo limit calls' c = r.readTo limit calls c := by
  rcases Engine.lessDefined_run ((Engine.standard Keywords.mysql).limited limit).silent
    Nonterminal.rule le r c with diverged | same
  · exact absurd diverged ends
  · exact same

namespace Rule

/-- The fewest tokens that a match takes, where a name takes one. -/
def least {α : Type} : Rule N α → Nat
  | .token _ => 1
  | .atEnd => 0
  | .call _ => 1
  | .map _ r => r.least
  | .convert _ r => r.least
  | .both a b => a.least + b.least
  | .either a b => min a.least b.least
  | .optional _ => 0
  | .many _ => 0
  | .sepBy1 item _ => item.least
  | .nested r => r.least

end Rule

namespace Engine

/-- The attempt goes forward, and a match takes so many tokens. -/
structure Takes (least : Nat) (a : Attempt Unit α) : Prop where
  forward : Forward a
  tokens : ∀ {c next : Cursor} {x : α}, (a c ()).1 = .matched x next → c.pos + least ≤ next.pos

namespace Takes

variable {e : Engine Unit} {m n : Nat} {a : Attempt Unit α} {b : Attempt Unit β}

theorem mono (ha : Takes m a) (le : n ≤ m) : Takes n a where
  forward := ha.forward
  tokens h := by
    have := ha.tokens h
    omega

theorem of_forward (ha : Forward a) : Takes 0 a where
  forward := ha
  tokens h := (ha.reaches h).le

theorem map (f : α → β) (ha : Takes n a) : Takes n (Engine.map f a) where
  forward := ha.forward.map f
  tokens h := by
    rw [fst_map, Outcome.map_eq_matched_iff] at h
    obtain ⟨y, matched, -⟩ := h
    exact ha.tokens matched

theorem convert (f : α → Except String β) (ha : Takes n a) : Takes n (e.convert f a) where
  forward := ha.forward.convert f
  tokens {c next x} h := by
    rw [fst_convert] at h
    cases first : (a c ()).1 with
    | matched y mid =>
      simp only [first, Outcome.handle_matched] at h
      split at h
      · cases h
        exact ha.tokens first
      · cases h
    | failed f => simp [first] at h
    | diverged => simp [first] at h

theorem both (ha : Takes m a) (hb : Takes n b) : Takes (m + n) (Engine.both a b) where
  forward := ha.forward.both hb.forward
  tokens {c next x} h := by
    rw [fst_both] at h
    cases first : (a c ()).1 with
    | matched y mid =>
      simp only [first, Outcome.handle_matched, Outcome.map_eq_matched_iff] at h
      obtain ⟨z, second, -⟩ := h
      have := ha.tokens first
      have := hb.tokens second
      omega
    | failed f => simp [first] at h
    | diverged => simp [first] at h

theorem either {b : Attempt Unit α} (ha : Takes m a) (hb : Takes n b) :
    Takes (min m n) (e.either a b) where
  forward := ha.forward.either hb.forward
  tokens {c next x} h := by
    rw [fst_either] at h
    cases first : (a c ()).1 with
    | matched y mid =>
      simp only [first, Outcome.handle_matched, Outcome.matched.injEq] at h
      obtain ⟨rfl, rfl⟩ := h
      exact (ha.mono (Nat.min_le_left m n)).tokens first
    | failed f =>
      simp only [first, Outcome.handle_failed] at h
      split at h
      · cases h
      · cases second : (b c ()).1 with
        | matched y mid =>
          simp only [second, Outcome.handle_matched, Outcome.matched.injEq] at h
          obtain ⟨rfl, rfl⟩ := h
          exact (hb.mono (Nat.min_le_right m n)).tokens second
        | failed g => simp [second] at h
        | diverged => simp [second] at h
    | diverged => simp [first] at h

theorem sepBy1 (ha : Takes n a) (hb : Forward b) : Takes n (e.sepBy1 a b) where
  forward := ha.forward.sepBy1 hb
  tokens {c next x} h := by
    rw [fst_sepBy1] at h
    cases first : (a c ()).1 with
    | matched y mid =>
      simp only [first, Outcome.handle_matched, Outcome.map_eq_matched_iff] at h
      obtain ⟨ys, followers, -⟩ := h
      have forward := ((hb.both ha.forward).map Prod.snd).followersUpTo (e := e)
        (mid.rest.length + 1)
      have := ha.tokens first
      have := (forward.reaches followers).le
      omega
    | failed f => simp [first] at h
    | diverged => simp [first] at h

theorem nested (ha : Takes n a) : Takes n (e.nested a) where
  forward := ha.forward.nested
  tokens {c next x} h := by
    rw [fst_nested] at h
    split at h
    · cases h
    · cases first : (a { c with depth := c.depth + 1 } ()).1 with
      | matched y mid =>
        simp only [first, Outcome.handle_matched, Outcome.matched.injEq] at h
        obtain ⟨rfl, rfl⟩ := h
        have taken := ha.tokens first
        exact taken
      | failed f => simp [first] at h
      | diverged => simp [first] at h

end Takes

theorem takes_relation (e : Engine Unit) {grammar : ∀ {β : Type}, N β → Rule N β}
    (names : ∀ {β : Type} (name : N β), 1 ≤ (grammar name).least) :
    RunRelation e e grammar fun r a _ => Takes r.least a where
  token t :=
    { forward := (forward_relation e grammar).token t
      tokens := by
        intro c next x h
        simp only [token, fail] at h
        split at h
        · cases h
        · split at h
          · cases h
            exact Nat.le_refl _
          · cases h }
  atEnd := .of_forward (forward_relation e grammar).atEnd
  unanswered _ := ⟨fun _ => trivial, nofun⟩
  call ha := ha.mono (names _)
  map f ha := ha.map f
  convert f ha := ha.convert f
  both ha hb := ha.both hb
  either ha hb := ha.either hb
  optional ha := .of_forward ha.forward.optional
  many ha := .of_forward fun c => ha.forward.manyUpTo _ c
  sepBy1 ha hb := ha.sepBy1 hb.forward
  nested ha := ha.nested

end Engine

namespace Rule

variable {limit calls : Nat} {r : DdlRule α} {c next : Cursor}

theorem least_rule (name : Nonterminal α) : 1 ≤ name.rule.least := by
  cases name <;> decide

theorem le_of_readTo {x : α} (h : r.readTo limit calls c = .matched x next) :
    c.pos + r.least ≤ next.pos :=
  ((Engine.takes_relation _ least_rule).run calls r).tokens h

theorem ne_of_readTo {x : α} (some : 1 ≤ r.least) (h : r.readTo limit calls c = .matched x next) :
    next ≠ c := by
  rintro rfl
  have := le_of_readTo h
  omega

end Rule

end TableDdl
