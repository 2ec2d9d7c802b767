import TableDdl.Proofs.Grammar.Failing
import TableDdl.Proofs.RoundTrip.Renders

/-!
# Replaying a rule on the written form

A rule of the expression grammar is run twice, on the tokens that were read and on those that are
written. What the rule takes is written so that the second run takes it too and gives the same
value. A run that was given up early is given up early again, which keeps every choice as it
was; the limit on nesting applies in both runs at the same places.
-/
namespace TableDdl

open Writes

variable {α β : Type}

/-- The second run stands where the first one stands. -/
structure Cursor.Beside (c c' : Cursor) : Prop where
  rest : Inside c.rest c'.rest
  depth : c'.depth = c.depth

/-- The second run does as the first. A rule is firm if a single token that it took is taken
again; a word of the rules that turns out to be a name is not. -/
structure Replay (calls : Nat) (r : DdlRule α) (firm : Bool) (W : α → Written → Prop) : Prop where
  fails : ∀ {k : Nat} {c c' : Cursor}, k ≤ 1 → c.Beside c' → r.FailsIn calls k c →
    r.FailsIn calls k c'
  short : ∀ {c c' next : Cursor} {x : α}, c.Beside c' → r.read calls c = .matched x next →
    next.pos ≤ c.pos + 1 →
    (∃ y next', r.read calls c' = .matched y next' ∧ next'.pos + c.pos = c'.pos + next.pos ∧
      next.Beside next') ∨ firm = false ∧ next.pos = c.pos + 1 ∧ r.FailsEarly calls c'
  written : ∀ {c next : Cursor} {x : α}, (∀ t ∈ c.rest, t.Sound Keywords.mysql) →
    r.read calls c = .matched x next →
    ∃ taken t, W x t ∧ t.looseNames = [] ∧ c.rest = taken ++ next.rest ∧
      List.Forall₂ Renders taken t.lexemes ∧
      (t.Good → ∀ pos rest, Inside next.rest rest → r.Takes calls c.depth pos t.lexemes rest x)

namespace Replay

variable {calls : Nat} {r : DdlRule α} {s : DdlRule β} {f g : Bool} {W V : α → Written → Prop}
  {U : β → Written → Prop}

theorem restate (h : Replay calls r f W) (same : ∀ x t, W x t → V x t) : Replay calls r f V where
  fails := h.fails
  short := h.short
  written sound read := by
    obtain ⟨taken, t, writes, rest⟩ := h.written sound read
    exact ⟨taken, t, same _ _ writes, rest⟩

theorem map (φ : α → β) (h : Replay calls r f W) : Replay calls (.map φ r) f (Mapped φ W) where
  fails bound beside fails :=
    (Rule.failsIn_map φ).2 (h.fails bound beside ((Rule.failsIn_map φ).1 fails))
  short beside read near := by
    obtain ⟨x, matched, rfl⟩ := Rule.map_matched_iff.1 read
    rcases h.short beside matched near with ⟨y, next', again, pos, later⟩ | ⟨off, one, lost⟩
    · exact .inl ⟨φ y, next', Rule.map_matched_iff.2 ⟨y, again, rfl⟩, pos, later⟩
    · exact .inr ⟨off, one, lost.map φ⟩
  written sound read := by
    obtain ⟨x, matched, rfl⟩ := Rule.map_matched_iff.1 read
    obtain ⟨taken, t, writes, loose, whole, renders, takes⟩ := h.written sound matched
    exact ⟨taken, t, ⟨x, writes, rfl⟩, loose, whole, renders,
      fun good pos rest inside => (takes good pos rest inside).map φ⟩

theorem sound_of_read {c next : Cursor} {x : α} (sound : ∀ t ∈ c.rest, t.Sound Keywords.mysql)
    (read : r.read calls c = .matched x next) : ∀ t ∈ next.rest, t.Sound Keywords.mysql := by
  obtain ⟨taken, whole, -, -⟩ := Rule.reaches_of_read read
  rw [whole] at sound
  exact fun t ht => sound t (List.mem_append_right _ ht)

theorem both (h : Replay calls r f W) (h' : Replay calls s g U) :
    Replay calls (.both r s) ((f || !s.nullable) && (g || !r.nullable)) (Paired W U) where
  fails {k c c'} bound beside fails := by
    rw [Rule.failsIn_both] at fails ⊢
    rcases fails with fails | ⟨x, mid, first, e, failed, near⟩
    · exact .inl (h.fails bound beside fails)
    have le := Rule.le_of_failed failed
    have le' := (Rule.reaches_of_read first).le
    -- The first part is read in front of the other text as well, or it fails there at once.
    rcases h.short beside first (by omega) with ⟨y, mid', again, pos, later⟩ | ⟨-, one, lost⟩
    · obtain ⟨e', failed', near'⟩ :=
        h'.fails (k := c.pos + k - mid.pos) (by omega) later ⟨e, failed, by omega⟩
      exact .inr ⟨y, mid', again, e', failed', by omega⟩
    · obtain rfl : k = 1 := by omega
      exact .inl lost
  short {c c' next z} beside read near := by
    obtain ⟨x, y⟩ := z
    obtain ⟨mid, first, second⟩ := Rule.both_matched_iff.1 read
    have le := (Rule.reaches_of_read first).le
    have le' := (Rule.reaches_of_read second).le
    rcases h.short beside first (by omega) with ⟨x', mid', again, pos, later⟩ | ⟨off, one, lost⟩
    · rcases h'.short later second (by omega) with
        ⟨y', next', again', pos', latest⟩ | ⟨off, one, lost⟩
      · exact .inl ⟨(x', y'), next', Rule.both_matched_iff.2 ⟨mid', again, again'⟩, by omega, latest⟩
      · have idle : mid.pos = c.pos := by omega
        have empty : r.nullable = true := by
          cases some : r.nullable with
          | true => rfl
          | false => exact absurd idle (Rule.consumes_of_some some first)
        obtain ⟨e, failed, near'⟩ := lost
        refine .inr ⟨by simp [off, empty], by omega, ?_⟩
        exact Rule.failsIn_both.2 (.inr ⟨x', mid', again, e, failed, by omega⟩)
    · have idle : next.pos = mid.pos := by omega
      have empty : s.nullable = true := by
        cases some : s.nullable with
        | true => rfl
        | false => exact absurd idle (Rule.consumes_of_some some second)
      exact .inr ⟨by simp [off, empty], by omega, lost.both s⟩
  written {c next z} sound read := by
    obtain ⟨x, y⟩ := z
    obtain ⟨mid, first, second⟩ := Rule.both_matched_iff.1 read
    obtain ⟨ts, t, writes, loose, whole, renders, takes⟩ := h.written sound first
    obtain ⟨us, u, writes', loose', whole', renders', takes'⟩ :=
      h'.written (sound_of_read sound first) second
    refine ⟨ts ++ us, t ++ u, ⟨t, u, writes, writes', rfl⟩, by simp [loose, loose'],
      by rw [whole, whole', List.append_assoc], List.rel_append renders renders', ?_⟩
    intro good pos rest inside
    obtain ⟨goodT, goodU⟩ := Written.good_append.1 good
    have between : Inside mid.rest (tokensOf u.lexemes ++ rest) := by
      have soundMid := sound_of_read sound first
      rw [whole'] at soundMid ⊢
      exact inside.append (fun t ht => soundMid t (List.mem_append_left _ ht)) renders'
    rw [depth_of_read first] at takes'
    exact (takes goodT pos _ between).both (takes' goodU _ rest inside)

/-- Of two alternatives the first has to be firm. -/
theorem either {s : DdlRule α} (h : Replay calls r true W) (h' : Replay calls s g V) :
    Replay calls (.either r s) g (Either W V) where
  fails bound beside fails := by
    rw [Rule.failsIn_either bound] at fails ⊢
    exact ⟨h.fails bound beside fails.1, h'.fails bound beside fails.2⟩
  short beside read near := by
    rcases Rule.either_matched_iff.1 read with matched | ⟨early, matched⟩
    · rcases h.short beside matched near with ⟨y, next', again, pos, later⟩ | ⟨off, -, -⟩
      · exact .inl ⟨y, next', Rule.either_matched_iff.2 (.inl again), pos, later⟩
      · cases off
    · have early' := h.fails (Nat.le_refl 1) beside early
      rcases h'.short beside matched near with ⟨y, next', again, pos, later⟩ | ⟨off, one, lost⟩
      · exact .inl ⟨y, next', Rule.either_matched_iff.2 (.inr ⟨early', again⟩), pos, later⟩
      · exact .inr ⟨off, one, (Rule.failsIn_either (Nat.le_refl 1)).2 ⟨early', lost⟩⟩
  written {c next x} sound read := by
    rcases Rule.either_matched_iff.1 read with matched | ⟨early, matched⟩
    · obtain ⟨taken, t, writes, loose, whole, renders, takes⟩ := h.written sound matched
      exact ⟨taken, t, .inl writes, loose, whole, renders, fun good pos rest inside =>
        Rule.either_matched_iff.2 (.inl (takes good pos rest inside))⟩
    · obtain ⟨taken, t, writes, loose, whole, renders, takes⟩ := h'.written sound matched
      refine ⟨taken, t, .inr writes, loose, whole, renders, fun good pos rest inside => ?_⟩
      have beside : c.Beside ⟨pos, tokensOf t.lexemes ++ rest, c.depth⟩ := by
        constructor
        · rw [whole] at sound ⊢
          exact inside.append (fun t ht => sound t (List.mem_append_left _ ht)) renders
        · rfl
      have early' := h.fails (Nat.le_refl 1) beside early
      exact Rule.either_matched_iff.2 (.inr ⟨early', takes good pos rest inside⟩)

theorem optional (h : Replay calls r true W) : Replay calls r.optional true (Perhaps W) where
  fails bound _ fails := absurd fails (Rule.not_failsIn_optional bound)
  short {c c' next o} beside read near := by
    rcases Rule.optional_matched_iff.1 read with ⟨x, rfl, matched⟩ | ⟨rfl, rfl, early⟩
    · rcases h.short beside matched near with ⟨y, next', again, pos, later⟩ | ⟨off, -, -⟩
      · exact .inl ⟨some y, next', Rule.optional_matched_iff.2 (.inl ⟨y, rfl, again⟩), pos, later⟩
      · cases off
    · have early' := h.fails (Nat.le_refl 1) beside early
      exact .inl ⟨none, c', Rule.optional_matched_iff.2 (.inr ⟨rfl, rfl, early'⟩), rfl, beside⟩
  written {c next o} sound read := by
    rcases Rule.optional_matched_iff.1 read with ⟨x, rfl, matched⟩ | ⟨rfl, rfl, early⟩
    · obtain ⟨taken, t, writes, loose, whole, renders, takes⟩ := h.written sound matched
      exact ⟨taken, t, writes, loose, whole, renders, fun good pos rest inside =>
        Rule.optional_matched_iff.2 (.inl ⟨x, rfl, takes good pos rest inside⟩)⟩
    · refine ⟨[], .nil, rfl, rfl, rfl, .nil, fun _ pos rest inside => ?_⟩
      have beside : next.Beside ⟨pos, rest, next.depth⟩ := ⟨inside, rfl⟩
      have early' := h.fails (Nat.le_refl 1) beside early
      exact Rule.optional_matched_iff.2 (.inr ⟨rfl, rfl, early'⟩)

/-- The rounds of a repetition on the written form. -/
theorem rounds {firm : Bool} (h : Replay calls r firm W) {c next : Cursor} {xs : List α}
    (sound : ∀ t ∈ c.rest, t.Sound Keywords.mysql) (read : Rule.Rounds calls r c xs next) :
    ∃ taken us, List.Forall₂ W xs us ∧ (Written.concat us).looseNames = [] ∧
      c.rest = taken ++ next.rest ∧ List.Forall₂ Renders taken (Written.concat us).lexemes ∧
      ((Written.concat us).Good → ∀ pos rest, Inside next.rest rest →
        Rule.Rounds calls r ⟨pos, tokensOf (Written.concat us).lexemes ++ rest, c.depth⟩ xs
          ⟨pos + (Written.concat us).lexemes.length, rest, c.depth⟩) := by
  induction read with
  | @stop c early =>
    refine ⟨[], [], .nil, rfl, rfl, .nil, fun _ pos rest inside => ?_⟩
    have beside : c.Beside ⟨pos, rest, c.depth⟩ := ⟨inside, rfl⟩
    exact .stop (h.fails (Nat.le_refl 1) beside early)
  | @round c mid next x xs first moved _ ih =>
    obtain ⟨ts, t, writes, loose, whole, renders, takes⟩ := h.written sound first
    obtain ⟨us, ws, all, loose', whole', renders', later⟩ := ih (sound_of_read sound first)
    refine ⟨ts ++ us, t :: ws, .cons writes all, by simp [loose, loose'],
      by rw [whole, whole', List.append_assoc], List.rel_append renders renders', ?_⟩
    intro good pos rest inside
    obtain ⟨goodT, goodU⟩ := Written.good_append.1 good
    have between : Inside mid.rest (tokensOf (Written.concat ws).lexemes ++ rest) := by
      have soundMid := sound_of_read sound first
      rw [whole'] at soundMid ⊢
      exact inside.append (fun t ht => soundMid t (List.mem_append_left _ ht)) renders'
    -- The round moved, so its text is not empty, and a round on it moves too.
    have length : 0 < t.lexemes.length := by
      rw [← renders.length_eq, List.length_pos_iff]
      rintro rfl
      have := (Rule.reaches_of_read first).total
      rw [whole] at this
      simp at this
      exact moved (by omega)
    have again := takes goodT pos _ between
    rw [depth_of_read first] at later
    rw [Written.concat_cons, Written.lexemes_append, tokensOf_append, List.append_assoc,
      List.length_append, ← Nat.add_assoc]
    exact .round again (by simp only [ne_eq]; omega) (later goodU _ rest inside)

/-- A repetition that took at most one token took one round at most. -/
theorem rounds_short {firm : Bool} (h : Replay calls r firm W) {c c' next : Cursor} {xs : List α}
    (beside : c.Beside c') (read : Rule.Rounds calls r c xs next) (near : next.pos ≤ c.pos + 1) :
    (∃ ys next', Rule.Rounds calls r c' ys next' ∧ next'.pos + c.pos = c'.pos + next.pos ∧
      next.Beside next') ∨ firm = false ∧ next.pos = c.pos + 1 ∧ r.FailsEarly calls c' := by
  have stop {c c' : Cursor} (beside : c.Beside c') (early : r.FailsEarly calls c) :
      Rule.Rounds calls r c' [] c' := .stop (h.fails (Nat.le_refl 1) beside early)
  cases read with
  | stop early => exact .inl ⟨[], c', stop beside early, rfl, beside⟩
  | @round _ mid _ x xs first moved later =>
    have le := (Rule.reaches_of_read first).le
    have le' := later.le
    rcases h.short beside first (by omega) with ⟨y, mid', again, pos, beside'⟩ | ⟨off, one, lost⟩
    · cases later with
      | stop early =>
        refine .inl ⟨[y], mid', .round again ?_ (stop beside' early), pos, beside'⟩
        omega
      | round second moved' latest =>
        have := (Rule.reaches_of_read second).le
        have := latest.le
        omega
    · exact .inr ⟨off, by omega, lost⟩

theorem many (h : Replay calls r true W) (some : r.nullable = false) :
    Replay calls r.many true (Repeated W) where
  fails bound _ fails := absurd fails (Rule.not_failsIn_many bound)
  short beside read near := by
    have rounds := (Rule.many_matched_iff (Rule.consumes_of_some some)).1 read
    rcases h.rounds_short beside rounds near with ⟨ys, next', again, pos, later⟩ | ⟨off, -, -⟩
    · exact .inl ⟨ys, next', Rule.many_of_rounds again, pos, later⟩
    · cases off
  written sound read := by
    have rounds := (Rule.many_matched_iff (Rule.consumes_of_some some)).1 read
    obtain ⟨taken, us, all, loose, whole, renders, later⟩ := h.rounds sound rounds
    exact ⟨taken, .concat us, ⟨us, all, rfl⟩, loose, whole, renders, fun good pos rest inside =>
      Rule.many_of_rounds (later good pos rest inside)⟩

theorem sepBy1 {separator : List Lexeme} (h : Replay calls r f W)
    (h' : Replay calls s g (fun _ t => t = .plain separator)) (some : r.nullable = false) :
    Replay calls (r.sepBy1 s) f (Separated separator W) := by
  have follower := (h'.both h).map Prod.snd
  constructor
  · intro k c c' bound beside fails
    rw [Rule.failsIn_sepBy1 bound] at fails ⊢
    exact h.fails bound beside fails
  · intro c c' next xs beside read near
    obtain ⟨x, mid, ys, rfl, first, rounds⟩ := Rule.sepBy1_matched_iff.1 read
    have moved := Rule.consumes_of_some some first
    have le := (Rule.reaches_of_read first).le
    have le' := rounds.le
    rcases h.short beside first (by omega) with ⟨y, mid', again, pos, later⟩ | ⟨off, one, lost⟩
    · cases rounds with
      | stop early =>
        have early' := follower.fails (Nat.le_refl 1) later early
        exact .inl ⟨[y], mid', Rule.sepBy1_matched_iff.2 ⟨y, mid', [], rfl, again, .stop early'⟩,
          pos, later⟩
      | round second moved' latest =>
        have := (Rule.reaches_of_read second).le
        have := latest.le
        omega
    · exact .inr ⟨off, by omega, (Rule.failsIn_sepBy1 (Nat.le_refl 1)).2 lost⟩
  · intro c next xs sound read
    obtain ⟨x, mid, ys, rfl, first, rounds⟩ := Rule.sepBy1_matched_iff.1 read
    obtain ⟨ts, t, writes, loose, whole, renders, takes⟩ := h.written sound first
    obtain ⟨us, ws, all, loose', whole', renders', later⟩ :=
      follower.rounds (sound_of_read sound first) rounds
    -- A round writes a separator and an item, and the texts of the items alone are asked for.
    have items : ∃ vs, List.Forall₂ W ys vs ∧ ws = vs.map (.plain separator ++ ·) := by
      clear * - all
      induction all with
      | nil => exact ⟨[], .nil, rfl⟩
      | cons head _ ih =>
        obtain ⟨⟨_, y⟩, ⟨u, v, rfl, writes, rfl⟩, rfl⟩ := head
        obtain ⟨vs, all, rfl⟩ := ih
        exact ⟨v :: vs, .cons writes all, rfl⟩
    obtain ⟨vs, texts, rfl⟩ := items
    refine ⟨ts ++ us, .separated separator (t :: vs),
      ⟨by simp, t :: vs, .cons writes texts, rfl⟩, by simp [Written.separated, loose, loose'],
      by rw [whole, whole', List.append_assoc], List.rel_append renders renders', ?_⟩
    intro good pos rest inside
    obtain ⟨goodT, goodU⟩ := Written.good_append.1 good
    have between : Inside mid.rest
        (tokensOf (Written.concat (vs.map (.plain separator ++ ·))).lexemes ++ rest) := by
      have soundMid := sound_of_read sound first
      rw [whole'] at soundMid ⊢
      exact inside.append (fun t ht => soundMid t (List.mem_append_left _ ht)) renders'
    rw [depth_of_read first] at later
    rw [Rule.Takes, Written.separated, Written.lexemes_append, tokensOf_append, List.append_assoc,
      List.length_append, ← Nat.add_assoc]
    exact Rule.sepBy1_matched_iff.2
      ⟨x, _, ys, rfl, takes goodT pos _ between, later goodU _ rest inside⟩

theorem nested (h : Replay calls r f W) : Replay calls r.nested f W where
  fails {k c c'} bound beside fails := by
    have deeper : ({ c with depth := c.depth + 1 } : Cursor).Beside
        { c' with depth := c'.depth + 1 } := ⟨beside.rest, by simp [beside.depth]⟩
    rw [Rule.failsIn_nested] at fails ⊢
    rw [beside.depth] at deeper ⊢
    rcases fails with deep | ⟨room, fails⟩
    · exact .inl deep
    · exact .inr ⟨room, h.fails bound deeper fails⟩
  short {c c' next x} beside read near := by
    have deeper : ({ c with depth := c.depth + 1 } : Cursor).Beside
        { c' with depth := c'.depth + 1 } := ⟨beside.rest, by simp [beside.depth]⟩
    obtain ⟨room, inner, matched, rfl⟩ := Rule.nested_matched_iff.1 read
    rcases h.short deeper matched near with ⟨y, inner', again, pos, later⟩ | ⟨off, one, lost⟩
    · refine .inl ⟨y, { inner' with depth := c'.depth }, ?_, pos, later.rest, beside.depth⟩
      exact Rule.nested_matched_iff.2 ⟨by rw [beside.depth]; exact room, inner', again, rfl⟩
    · refine .inr ⟨off, one, Rule.failsIn_nested.2 (.inr ⟨?_, lost⟩)⟩
      rw [beside.depth]
      exact room
  written {c next x} sound read := by
    obtain ⟨room, inner, matched, rfl⟩ := Rule.nested_matched_iff.1 read
    obtain ⟨taken, t, writes, loose, whole, renders, takes⟩ :=
      h.written (c := { c with depth := c.depth + 1 }) sound matched
    refine ⟨taken, t, writes, loose, whole, renders, fun good pos rest inside => ?_⟩
    exact Rule.nested_matched_iff.2 ⟨room, _, takes good pos rest inside, rfl⟩

/-- A name stands for its rule, one call further in. -/
theorem call {name : Nonterminal α} (h : Replay calls name.rule f W) :
    Replay (calls + 1) (.call name) f W := ⟨h.fails, h.short, h.written⟩

/-- Without any calls left there is nothing to replay. -/
theorem call_zero (name : Nonterminal α) : Replay 0 (.call name) f W where
  fails _ _ fails := by
    obtain ⟨e, failed, -⟩ := fails
    cases failed
  short _ read _ := by cases read
  written _ read := by cases read

theorem seq {r : DdlRule (α → β)} {s : DdlRule α} {W : (α → β) → Written → Prop}
    (h : Replay calls r f W) (h' : Replay calls s g V) :
    Replay calls (r <*> s) ((f || !s.nullable) && (g || !r.nullable)) (Applied W V) := by
  apply ((h.both h').map _).restate
  rintro y t ⟨⟨φ, x⟩, ⟨u, v, writes, writes', rfl⟩, rfl⟩
  exact ⟨φ, x, u, v, writes, writes', rfl, rfl⟩

/-- Words before a value. -/
theorem after {ls : List Lexeme} (h : Replay calls s f fun _ t => t = .plain ls)
    (h' : Replay calls r g W) :
    Replay calls (s *> r) ((f || !r.nullable) && (g || !s.nullable)) (After ls W) := by
  apply ((h.both h').map _).restate
  rintro x t ⟨⟨_, _⟩, ⟨_, u, rfl, writes, rfl⟩, rfl⟩
  exact ⟨u, writes, rfl⟩

/-- Words after words. -/
theorem phrase {ls ms : List Lexeme} (h : Replay calls s f fun _ t => t = .plain ls)
    (h' : Replay calls r g fun _ t => t = .plain ms) :
    Replay calls (s *> r) ((f || !r.nullable) && (g || !s.nullable))
      (fun _ t => t = .plain (ls ++ ms)) := by
  apply (h.after h').restate
  rintro x t ⟨_, rfl, rfl⟩
  rfl

/-- A fixed value. -/
theorem as {ls : List Lexeme} (h : Replay calls s f fun _ t => t = .plain ls) (value : α) :
    Replay calls (s.as value) f (fun x t => x = value ∧ t = .plain ls) := by
  apply (h.map _).restate
  rintro x t ⟨_, rfl, rfl⟩
  exact ⟨rfl, rfl⟩

theorem flag {ls : List Lexeme} (h : Replay calls s true fun _ t => t = .plain ls) :
    Replay calls s.flag true (Exactly fun b => if b then .plain ls else .nil) := by
  apply (h.optional.map _).restate
  rintro b t ⟨o, writes, rfl⟩
  cases o with
  | none => exact writes
  | some x => exact writes

end Replay
end TableDdl
