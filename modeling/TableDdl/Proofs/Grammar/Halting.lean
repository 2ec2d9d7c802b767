import TableDdl.Proofs.Grammar.Limit

/-!
# Every reading comes to an end

Every round of a list but the last takes a token, and every few named rules inside each other are
a level of nesting. Main statement: with four calls for each level every reading comes to an end,
whatever the words of the table and the limit of nesting are.
-/
namespace TableDdl

variable {α β : Type}

/-- How many named rules, this one included, may stand inside each other before there is a new
level of nesting. -/
def Nonterminal.rank {α : Type} : Nonterminal α → Nat
  | .expression => 1
  | .select => 1
  | .term => 2
  | .condition => 3

namespace Rule

/-- The same for any rule, where a level makes up for four names. -/
def rank {α : Type} : DdlRule α → Nat
  | .token _ => 0
  | .atEnd => 0
  | .call name => name.rank
  | .map _ r => r.rank
  | .convert _ r => r.rank
  | .both a b => max a.rank b.rank
  | .either a b => max a.rank b.rank
  | .optional r => r.rank
  | .many r => r.rank
  | .sepBy1 item separator => max item.rank separator.rank
  | .nested r => r.rank - 4

/-- No list goes on without taking a token. -/
def advances {α : Type} : DdlRule α → Bool
  | .token _ => true
  | .atEnd => true
  | .call _ => true
  | .map _ r => r.advances
  | .convert _ r => r.advances
  | .both a b => a.advances && b.advances
  | .either a b => a.advances && b.advances
  | .optional r => r.advances
  | .many r => r.advances
  | .sepBy1 item separator =>
    item.advances && separator.advances && decide (1 ≤ separator.least + item.least)
  | .nested r => r.advances

theorem rank_rule (name : Nonterminal α) : name.rule.rank + 1 ≤ name.rank := by
  cases name <;> decide

theorem advances_rule (name : Nonterminal α) : name.rule.advances = true := by
  cases name <;> decide

end Rule

namespace Engine

open Outcome (matched_ne_diverged failed_ne_diverged handle_ne_diverged map_ne_diverged)

variable {e : Engine Unit} {a : Attempt Unit α} {b : Attempt Unit β} {c : Cursor}
  {calls depth : Nat}

/-- A repetition ends where its rounds do, since every round but the last takes a token. -/
theorem many_ne_diverged (forward : Forward a)
    (ends : ∀ {c' : Cursor}, c.Reaches c' → (a c' ()).1 ≠ .diverged) :
    (e.many a c ()).1 ≠ .diverged := by
  induction length : c.rest.length using Nat.strongRecOn generalizing c with
  | ind n ih =>
    rw [fst_many forward]
    refine handle_ne_diverged (ends (.refl c)) (fun x next first => ?_) fun f => ?_
    · split
      · exact matched_ne_diverged
      · rename_i moved
        have reaches := forward.reaches first
        have later := ih _ (length ▸ reaches.length_lt moved)
          (fun ahead => ends (reaches.trans ahead)) rfl
        exact map_ne_diverged later
    · split
      · exact failed_ne_diverged
      · exact matched_ne_diverged

theorem followers_ne_diverged (forward : Forward a)
    (takes : ∀ {c' next : Cursor} {x : α}, c.Reaches c' → (a c' ()).1 = .matched x next →
      next.pos ≠ c'.pos)
    (ends : ∀ {c' : Cursor}, c.Reaches c' → (a c' ()).1 ≠ .diverged) :
    (e.followersUpTo a (c.rest.length + 1) c ()).1 ≠ .diverged := by
  induction length : c.rest.length using Nat.strongRecOn generalizing c with
  | ind n ih =>
    rw [← length, fst_followers forward]
    refine handle_ne_diverged (ends (.refl c)) (fun x next first => ?_) fun f => ?_
    · have moved := takes (.refl c) first
      have reaches := forward.reaches first
      have later := ih _ (length ▸ reaches.length_lt moved)
        (fun ahead => takes (reaches.trans ahead)) (fun ahead => ends (reaches.trans ahead)) rfl
      rw [if_neg moved]
      exact map_ne_diverged later
    · split
      · exact failed_ne_diverged
      · exact matched_ne_diverged

/-- A list ends where its items and separators do, if every round takes a token. -/
theorem sepBy1_ne_diverged (ha : Forward a) (hb : Forward b)
    (takes : ∀ {c' next : Cursor} {x : α}, c.Reaches c' →
      (map Prod.snd (both b a) c' ()).1 = .matched x next → next.pos ≠ c'.pos)
    (items : ∀ {c' : Cursor}, c.Reaches c' → (a c' ()).1 ≠ .diverged)
    (separators : ∀ {c' : Cursor}, c.Reaches c' → (b c' ()).1 ≠ .diverged) :
    (e.sepBy1 a b c ()).1 ≠ .diverged := by
  rw [fst_sepBy1]
  refine handle_ne_diverged (items (.refl c)) (fun x mid first => ?_) fun _ => failed_ne_diverged
  have start := ha.reaches first
  refine map_ne_diverged (followers_ne_diverged ((hb.both ha).map Prod.snd)
    (fun ahead => takes (start.trans ahead)) fun ahead => ?_)
  have ahead := start.trans ahead
  rw [fst_map, fst_both]
  exact map_ne_diverged (handle_ne_diverged (separators ahead)
    (fun y mid' second => map_ne_diverged (items (ahead.trans (hb.reaches second))))
    fun _ => failed_ne_diverged)

/-- The attempt comes to an end wherever it begins at that level of nesting. -/
def EndsAt (depth : Nat) (a : Attempt Unit α) : Prop :=
  ∀ ⦃c⦄, c.depth = depth → (a c ()).1 ≠ .diverged

theorem endsAt_token (t : Terminal) : EndsAt depth (e.token t) := by
  intro c _
  simp only [token, fail]
  split
  · exact failed_ne_diverged
  · split
    · exact matched_ne_diverged
    · exact failed_ne_diverged

theorem endsAt_atEnd : EndsAt depth e.atEnd := by
  intro c _
  simp only [atEnd, fail]
  split
  · exact matched_ne_diverged
  · exact failed_ne_diverged

namespace EndsAt

theorem map (f : α → β) (h : EndsAt depth a) : EndsAt depth (Engine.map f a) := by
  intro c here
  rw [fst_map]
  exact map_ne_diverged (h here)

theorem convert (f : α → Except String β) (h : EndsAt depth a) :
    EndsAt depth (e.convert f a) := by
  intro c here
  rw [fst_convert]
  refine handle_ne_diverged (h here) (fun x next _ => ?_) fun _ => failed_ne_diverged
  split
  · exact matched_ne_diverged
  · exact failed_ne_diverged

theorem both (forward : Forward a) (ha : EndsAt depth a) (hb : EndsAt depth b) :
    EndsAt depth (Engine.both a b) := by
  intro c here
  rw [fst_both]
  refine handle_ne_diverged (ha here) (fun x mid first => ?_) fun _ => failed_ne_diverged
  exact map_ne_diverged (hb ((forward.reaches first).depth.trans here))

theorem either {b : Attempt Unit α} (ha : EndsAt depth a) (hb : EndsAt depth b) :
    EndsAt depth (e.either a b) := by
  intro c here
  rw [fst_either]
  refine handle_ne_diverged (ha here) (fun _ _ _ => matched_ne_diverged) fun g => ?_
  split
  · exact failed_ne_diverged
  · exact handle_ne_diverged (hb here) (fun _ _ _ => matched_ne_diverged)
      fun _ => failed_ne_diverged

theorem optional (h : EndsAt depth a) : EndsAt depth (e.optional a) := by
  intro c here
  rw [fst_optional]
  refine handle_ne_diverged (h here) (fun _ _ _ => matched_ne_diverged) fun g => ?_
  split
  · exact failed_ne_diverged
  · exact matched_ne_diverged

theorem many (forward : Forward a) (h : EndsAt depth a) : EndsAt depth (e.many a) :=
  fun _ here => many_ne_diverged forward fun ahead => h (ahead.depth.trans here)

theorem sepBy1 {m n : Nat} (takesA : Takes m a) (takesB : Takes n b) (some : 1 ≤ n + m)
    (ha : EndsAt depth a) (hb : EndsAt depth b) : EndsAt depth (e.sepBy1 a b) := by
  intro c here
  have round := (takesB.both takesA).map Prod.snd
  refine sepBy1_ne_diverged takesA.forward takesB.forward (fun _ matched => ?_)
    (fun ahead => ha (ahead.depth.trans here)) fun ahead => hb (ahead.depth.trans here)
  have := round.tokens matched
  omega

/-- One level further in, unless the limit is reached. -/
theorem nested (h : depth < e.maxDepth → EndsAt (depth + 1) a) : EndsAt depth (e.nested a) := by
  rintro c rfl
  rw [fst_nested]
  split
  · exact failed_ne_diverged
  · rename_i room
    exact handle_ne_diverged (h (Nat.lt_of_not_le room) rfl) (fun _ _ _ => matched_ne_diverged)
      fun _ => failed_ne_diverged

end EndsAt

/-- Where the named rules end with their rank of calls left, so does every rule. -/
theorem endsAt_of_names (e : Engine Unit)
    (names : ∀ {β : Type} (name : Nonterminal β) {depth : Nat},
      4 * (e.maxDepth - depth) + name.rank ≤ calls →
        EndsAt depth (e.run Nonterminal.rule calls (.call name)))
    {r : DdlRule α} (advances : r.advances = true)
    (enough : 4 * (e.maxDepth - depth) + r.rank ≤ calls) :
    EndsAt depth (e.run Nonterminal.rule calls r) := by
  have takes {β : Type} (r : DdlRule β) : Takes r.least (e.run Nonterminal.rule calls r) :=
    (takes_relation e Rule.least_rule).run calls r
  -- On the rule: a part has a smaller rank, and what is nested has one level of depth less to go.
  induction r generalizing depth with
  | token t =>
    rw [run_token]
    exact endsAt_token t
  | atEnd =>
    rw [run_atEnd]
    exact endsAt_atEnd
  | call name => exact names name enough
  | map f r ih =>
    rw [run_map]
    exact (ih advances enough).map f
  | convert f r ih =>
    rw [run_convert]
    exact (ih advances enough).convert f
  | both a b iha ihb =>
    obtain ⟨advA, advB⟩ := Bool.and_eq_true_iff.1 advances
    simp only [Rule.rank] at enough
    rw [run_both]
    exact .both (takes a).forward (iha advA (by omega)) (ihb advB (by omega))
  | either a b iha ihb =>
    obtain ⟨advA, advB⟩ := Bool.and_eq_true_iff.1 advances
    simp only [Rule.rank] at enough
    rw [run_either]
    exact (iha advA (by omega)).either (ihb advB (by omega))
  | optional r ih =>
    rw [run_optional]
    exact (ih advances enough).optional
  | many r ih =>
    rw [run_many]
    exact (ih advances enough).many (takes r).forward
  | sepBy1 item separator iha ihb =>
    obtain ⟨adv, some⟩ := Bool.and_eq_true_iff.1 advances
    obtain ⟨advA, advB⟩ := Bool.and_eq_true_iff.1 adv
    simp only [Rule.rank] at enough
    rw [run_sepBy1]
    exact .sepBy1 (takes item) (takes separator) (of_decide_eq_true some)
      (iha advA (by omega)) (ihb advB (by omega))
  | nested r ih =>
    simp only [Rule.rank] at enough
    rw [run_nested]
    exact .nested fun room => ih advances (by omega)

/-- With its rank of calls and four more for each level that is left, a rule does not go on
forever. -/
theorem endsAt_run (e : Engine Unit) {r : DdlRule α} (advances : r.advances = true)
    (enough : 4 * (e.maxDepth - depth) + r.rank ≤ calls) :
    EndsAt depth (e.run Nonterminal.rule calls r) := by
  induction calls generalizing α depth with
  | zero =>
    refine endsAt_of_names e (fun name _ few => ?_) advances enough
    have := Rule.rank_rule name
    omega
  | succ calls ih =>
    refine endsAt_of_names e (fun name depth few => ?_) advances enough
    have := Rule.rank_rule name
    have ends : EndsAt depth (e.run Nonterminal.rule calls name.rule) :=
      ih (Rule.advances_rule name) (by omega)
    exact ends

end Engine

theorem Rule.readTo_ne_diverged {limit calls : Nat} {r : DdlRule α} {c : Cursor}
    (advances : r.advances = true) (enough : 4 * (limit - c.depth) + r.rank ≤ calls) :
    r.readTo limit calls c ≠ .diverged :=
  Engine.endsAt_run _ advances enough rfl

end TableDdl
