import TableDdl.Proofs.Grammar.Lowered

/-!
# Room below the limit

How many tokens a rule takes before it first asks for a level of nesting that may be missing. Up to
there two limits make no difference: the readings are the same, or both go on beyond that. Main
statement: a rule with room for two tokens fails early with the one limit where it does with the
other.
-/
namespace TableDdl

variable {α β : Type}

namespace Outcome

/-- There is no match or failure before that place. -/
def NotBefore (o : Outcome α) (p : Nat) : Prop :=
  match o with
  | .matched _ next => p ≤ next.pos
  | .failed f => p ≤ f.pos
  | .diverged => True

/-- The outcomes are the same, or none of them lies before that place. -/
def PartAfter (o o' : Outcome α) (p : Nat) : Prop := o = o' ∨ o.NotBefore p ∧ o'.NotBefore p

variable {o o' : Outcome α} {p q : Nat}

theorem NotBefore.mono (h : o.NotBefore p) (le : q ≤ p) : o.NotBefore q := by
  cases o with
  | matched x next => exact Nat.le_trans le h
  | failed f => exact Nat.le_trans le h
  | diverged => trivial

theorem NotBefore.map (f : α → β) (h : o.NotBefore p) : (o.map f).NotBefore p := by
  cases o <;> exact h

/-- What comes after a match, or after a failure, does not go back. -/
theorem NotBefore.handle {k : α → Cursor → Outcome β} {r : Failure → Outcome β}
    (h : o.NotBefore p) (matched : ∀ x next, p ≤ next.pos → (k x next).NotBefore q)
    (failed : ∀ f, p ≤ f.pos → (r f).NotBefore q) : (o.handle k r).NotBefore q := by
  cases o with
  | matched x next => exact matched x next h
  | failed f => exact failed f h
  | diverged => trivial

theorem PartAfter.mono (h : o.PartAfter o' p) (le : q ≤ p) : o.PartAfter o' q :=
  h.imp id fun both => ⟨both.1.mono le, both.2.mono le⟩

theorem PartAfter.map (f : α → β) (h : o.PartAfter o' p) : (o.map f).PartAfter (o'.map f) p :=
  h.imp (congrArg _) fun both => ⟨both.1.map f, both.2.map f⟩

end Outcome

/-- Where the first round goes on for two tokens, or fails late, the repetition gets as far. -/
theorem Repeats.notBefore {a : Cursor → Outcome α} {stuck rounds : Cursor → Outcome (List α)}
    {c : Cursor} (h : Repeats a stuck rounds) (forward : ∀ c, (rounds c).NotBefore c.pos)
    (after : (a c).NotBefore (c.pos + 2)) : (rounds c).NotBefore (c.pos + 2) := by
  rw [h c]
  refine after.handle (fun x next le => ?_) fun f le => ?_
  · rw [if_neg (by omega)]
    exact ((forward next).mono (by omega)).map _
  · rw [if_pos (by omega)]
    exact le

/-- The room that a rule with a name has with so many levels left. -/
def Nonterminal.room {α : Type} (levels : Nat) : Nonterminal α → Nat
  | .expression => min levels 1
  | .condition => 1
  | .term => 1
  | .select => if 2 ≤ levels then 2 else 1

namespace Rule

/-- How many tokens, up to two, a rule takes before it asks for a level of nesting that is not
among so many. -/
def room {α : Type} (levels : Nat) : DdlRule α → Nat
  | .token _ => 2
  | .atEnd => 2
  | .call name => name.room levels
  | .map _ r => r.room levels
  | .convert _ r => if r.flat then 2 else 0
  | .both a b => min (a.room levels) (a.least + b.room levels)
  | .either a b =>
    min (a.room levels) (min (b.room levels) (if 2 ≤ a.room levels then 2 else b.least))
  | .optional r => if 2 ≤ r.room levels then 2 else 0
  | .many r => if 2 ≤ r.room levels then 2 else 0
  | .sepBy1 item separator => min (item.room levels) (item.least +
    if 2 ≤ min (separator.room levels) (separator.least + item.room levels) then 2 else 0)
  | .nested r =>
    match levels with
    | 0 => 0
    | inner + 1 => r.room inner

/-- With so many levels left, the readings with two limits part only after the room. -/
def Parts (n m calls : Nat) (r : DdlRule α) : Prop :=
  ∀ ⦃levels : Nat⦄ ⦃c : Cursor⦄, levels ≤ 2 → levels ≤ n - c.depth → levels ≤ m - c.depth →
    (r.readTo n calls c).PartAfter (r.readTo m calls c) (c.pos + r.room levels)

variable {n m limit calls p : Nat} {r : DdlRule α} {s : DdlRule β} {c : Cursor}

theorem notBefore_self (limit calls : Nat) (r : DdlRule α) (c : Cursor) :
    (r.readTo limit calls c).NotBefore c.pos := by
  have ahead := forward_readTo limit calls r c
  change (r.readTo limit calls c).Ahead c at ahead
  cases outcome : r.readTo limit calls c with
  | matched x next => rw [outcome] at ahead; exact ahead.le
  | failed f => rw [outcome] at ahead; exact ahead.1
  | diverged => trivial

theorem notBefore_followers (limit calls : Nat) (r : DdlRule α) (c : Cursor) :
    (followersTo limit calls r c).NotBefore c.pos := by
  have ahead : (followersTo limit calls r c).Ahead c :=
    (forward_readTo limit calls r).followersUpTo _ c
  cases outcome : followersTo limit calls r c with
  | matched x next => rw [outcome] at ahead; exact ahead.le
  | failed f => rw [outcome] at ahead; exact ahead.1
  | diverged => trivial

theorem notBefore_both (h : (r.readTo limit calls c).NotBefore p) :
    ((Rule.both r s).readTo limit calls c).NotBefore p := by
  rw [readTo_both]
  exact h.handle (fun x mid le => ((notBefore_self limit calls s mid).mono le).map _)
    fun _ le => le

theorem notBefore_either {s : DdlRule α} (h : (r.readTo limit calls c).NotBefore p)
    (some : p ≤ c.pos + s.least ∨ c.pos + 2 ≤ p) :
    ((Rule.either r s).readTo limit calls c).NotBefore p := by
  rw [readTo_either]
  refine h.handle (fun _ _ le => le) fun f le => ?_
  split
  · exact le
  · cases second : s.readTo limit calls c with
    | matched x next =>
      have := le_of_readTo second
      change p ≤ next.pos
      omega
    | failed g =>
      change p ≤ (if c.pos + 1 < g.pos then g else f.deeper g).pos
      split
      · omega
      · rw [Failure.deeper_pos]
        omega
    | diverged => trivial

namespace Parts

theorem of_flat (flat : r.flat = true) : r.Parts n m calls :=
  fun _ _ _ _ _ => .inl (readTo_of_flat flat _)

theorem map (f : α → β) (h : r.Parts n m calls) : (Rule.map f r).Parts n m calls := by
  intro levels c two below below'
  rw [readTo_map, readTo_map]
  exact (h two below below').map f

theorem convert (f : α → Except String β) (r : DdlRule α) :
    (Rule.convert f r).Parts n m calls := by
  intro levels c _ _ _
  by_cases flat : r.flat = true
  · exact .inl (readTo_of_flat (r := .convert f r) flat _)
  · refine .inr ?_
    simp only [room, flat]
    exact ⟨notBefore_self _ _ _ _, notBefore_self _ _ _ _⟩

theorem both (hr : r.Parts n m calls) (hs : s.Parts n m calls) :
    (Rule.both r s).Parts n m calls := by
  intro levels c two below below'
  rcases hr two below below' with same | ⟨after, after'⟩
  · rw [readTo_both, readTo_both, ← same]
    cases first : r.readTo n calls c with
    | matched x mid =>
      have taken := le_of_readTo first
      have deep := depth_of_readTo first
      refine ((hs two (deep ▸ below) (deep ▸ below')).map (x, ·)).mono ?_
      simp only [room]
      omega
    | failed f => exact .inl rfl
    | diverged => exact .inl rfl
  · have le : c.pos + (Rule.both r s).room levels ≤ c.pos + r.room levels := by
      simp only [room]
      omega
    exact .inr ⟨(notBefore_both after).mono le, (notBefore_both after').mono le⟩

theorem either {s : DdlRule α} (hr : r.Parts n m calls) (hs : s.Parts n m calls) :
    (Rule.either r s).Parts n m calls := by
  intro levels c two below below'
  have le : (Rule.either r s).room levels ≤ r.room levels ∧
      (Rule.either r s).room levels ≤ s.room levels ∧
      (r.room levels < 2 → (Rule.either r s).room levels ≤ s.least) := by
    simp only [room]
    split <;> omega
  -- Where the first alternative is the same under both limits, the second one decides.
  rcases hr two below below' with same | ⟨after, after'⟩
  · rcases hs two below below' with same' | ⟨after, after'⟩
    · exact .inl (by rw [readTo_either, readTo_either, same, same'])
    · rw [readTo_either, readTo_either, ← same]
      have later {limit : Nat} (f : Failure)
          (after : (s.readTo limit calls c).NotBefore (c.pos + s.room levels)) :
          ((s.readTo limit calls c).handle .matched fun g =>
            .failed (if c.pos + 1 < g.pos then g else f.deeper g)).NotBefore
              (c.pos + (Rule.either r s).room levels) := by
        refine after.handle (fun x next far => ?_) fun g far => ?_
        · change _ ≤ next.pos
          omega
        · change _ ≤ (if c.pos + 1 < g.pos then g else f.deeper g).pos
          split
          · omega
          · rw [Failure.deeper_pos]
            omega
      cases r.readTo n calls c with
      | matched x next => exact .inl rfl
      | failed f =>
        rw [Outcome.handle_failed, Outcome.handle_failed]
        split
        · exact .inl rfl
        · exact .inr ⟨later f after, later f after'⟩
      | diverged => exact .inl rfl
  · by_cases two : 2 ≤ r.room levels
    · have far : c.pos + 2 ≤ c.pos + r.room levels := by omega
      exact .inr ⟨(notBefore_either after (.inr far)).mono (by omega),
        (notBefore_either after' (.inr far)).mono (by omega)⟩
    · have near := le.2.2 (by omega)
      exact .inr ⟨notBefore_either (after.mono (by omega)) (.inl (by omega)),
        notBefore_either (after'.mono (by omega)) (.inl (by omega))⟩

theorem optional (h : r.Parts n m calls) : r.optional.Parts n m calls := by
  intro levels c two below below'
  by_cases far : 2 ≤ r.room levels
  · rw [readTo_optional, readTo_optional]
    rcases h two below below' with same | ⟨after, after'⟩
    · exact .inl (by rw [same])
    · simp only [room, far, if_true]
      have late {limit : Nat} (after : (r.readTo limit calls c).NotBefore (c.pos + r.room levels)) :
          ((r.readTo limit calls c).handle (fun x next => .matched (some x) next) fun f =>
            if c.pos + 1 < f.pos then .failed f else .matched none c).NotBefore (c.pos + 2) := by
        refine after.handle (fun x next le => ?_) fun f le => ?_
        · change _ ≤ next.pos
          omega
        · rw [if_pos (by omega)]
          change _ ≤ f.pos
          omega
      exact .inr ⟨late after, late after'⟩
  · simp only [room, far, if_false]
    exact .inr ⟨notBefore_self _ _ _ _, notBefore_self _ _ _ _⟩

/-- A repetition of rounds with room for two tokens. -/
theorem of_rounds {levels : Nat} (h : r.Parts n m calls) (far : 2 ≤ r.room levels)
    (two : levels ≤ 2) {go go' stuck : Cursor → Outcome (List α)}
    (round : Repeats (r.readTo n calls) stuck go)
    (round' : Repeats (r.readTo m calls) stuck go')
    (forward : ∀ c, (go c).NotBefore c.pos) (forward' : ∀ c, (go' c).NotBefore c.pos)
    {c : Cursor} (below : levels ≤ n - c.depth) (below' : levels ≤ m - c.depth) :
    (go c).PartAfter (go' c) (c.pos + 2) := by
  induction length : c.rest.length using Nat.strongRecOn generalizing c with
  | ind length' ih =>
    -- The round is the same under both limits, or it ends no earlier than two tokens on under both.
    rcases h two below below' with same | ⟨after, after'⟩
    · rw [round c, round' c, ← same]
      cases first : r.readTo n calls c with
      | matched x mid =>
        rw [Outcome.handle_matched, Outcome.handle_matched]
        split
        · exact .inl rfl
        · rename_i moved
          have reaches := reaches_of_readTo first
          have deep := depth_of_readTo first
          have le := reaches.le
          exact ((ih _ (length ▸ reaches.length_lt moved) (deep ▸ below) (deep ▸ below')
            rfl).map _).mono (by omega)
      | failed f => exact .inl rfl
      | diverged => exact .inl rfl
    · exact .inr ⟨round.notBefore forward (after.mono (by omega)),
        round'.notBefore forward' (after'.mono (by omega))⟩

theorem many (h : r.Parts n m calls) : r.many.Parts n m calls := by
  intro levels c two below below'
  by_cases far : 2 ≤ r.room levels
  · simp only [room, far, if_true]
    exact h.of_rounds far two repeats_readTo_many repeats_readTo_many
      (notBefore_self _ _ _) (notBefore_self _ _ _) below below'
  · simp only [room, far, if_false]
    exact .inr ⟨notBefore_self _ _ _ _, notBefore_self _ _ _ _⟩

theorem followers (h : r.Parts n m calls) {levels : Nat} {c : Cursor} (two : levels ≤ 2)
    (below : levels ≤ n - c.depth) (below' : levels ≤ m - c.depth) :
    (followersTo n calls r c).PartAfter (followersTo m calls r c)
      (c.pos + if 2 ≤ r.room levels then 2 else 0) := by
  by_cases far : 2 ≤ r.room levels
  · rw [if_pos far]
    exact h.of_rounds far two repeats_followersTo repeats_followersTo
      (notBefore_followers _ _ _) (notBefore_followers _ _ _) below below'
  · rw [if_neg far]
    exact .inr ⟨notBefore_followers _ _ _ _, notBefore_followers _ _ _ _⟩

theorem sepBy1 (hr : r.Parts n m calls) (hs : s.Parts n m calls) :
    (r.sepBy1 s).Parts n m calls := by
  intro levels c two below below'
  rw [readTo_sepBy1, readTo_sepBy1]
  rcases hr two below below' with same | ⟨after, after'⟩
  · rw [← same]
    cases first : r.readTo n calls c with
    | matched x mid =>
      have taken := le_of_readTo first
      have deep := depth_of_readTo first
      have later := ((hs.both hr).map Prod.snd).followers two (deep ▸ below) (deep ▸ below')
      refine (later.map (x :: ·)).mono ?_
      change _ ≤ mid.pos + if 2 ≤ min (s.room levels) (s.least + r.room levels) then 2 else 0
      simp only [room]
      omega
    | failed f => exact .inl (by simp only [Outcome.handle_failed])
    | diverged => exact .inl (by simp only [Outcome.handle])
  · have late {limit : Nat} (after : (r.readTo limit calls c).NotBefore (c.pos + r.room levels)) :
        ((r.readTo limit calls c).handle
          (fun x next => (followersTo limit calls (s *> r) next).map (x :: ·)) .failed).NotBefore
            (c.pos + (r.sepBy1 s).room levels) := by
      have le : (r.sepBy1 s).room levels ≤ r.room levels := by
        simp only [room]
        omega
      refine (after.mono (Nat.add_le_add_left le _)).handle
        (fun x next far => ?_) fun f far => far
      exact ((notBefore_followers _ _ _ next).mono far).map _
    exact .inr ⟨late after, late after'⟩

theorem nested (h : r.Parts n m calls) : r.nested.Parts n m calls := by
  intro levels c two below below'
  cases levels with
  | zero => exact .inr ⟨notBefore_self _ _ _ _, notBefore_self _ _ _ _⟩
  | succ inner =>
    rw [readTo_nested, readTo_nested, if_neg (by omega), if_neg (by omega)]
    have inside : (r.readTo n calls { c with depth := c.depth + 1 }).PartAfter
        (r.readTo m calls { c with depth := c.depth + 1 }) (c.pos + r.room inner) :=
      h (by omega) (by simp only; omega) (by simp only; omega)
    rcases inside with same | ⟨after, after'⟩
    · exact .inl (by rw [same])
    · exact .inr ⟨after.handle (fun _ _ le => le) fun _ le => le,
        after'.handle (fun _ _ le => le) fun _ le => le⟩

/-- Where the named rules part only after their room, every rule does. -/
theorem of_names (names : ∀ {β : Type} (name : Nonterminal β), Parts n m calls (.call name))
    (r : DdlRule α) : r.Parts n m calls := by
  induction r with
  | token t => exact .of_flat rfl
  | atEnd => exact .of_flat rfl
  | call name => exact names name
  | map f _ ih => exact ih.map f
  | convert f r _ => exact .convert f r
  | both _ _ iha ihb => exact iha.both ihb
  | either _ _ iha ihb => exact iha.either ihb
  | optional _ ih => exact ih.optional
  | many _ ih => exact ih.many
  | sepBy1 _ _ iha ihb => exact iha.sepBy1 ihb
  | nested _ ih => exact ih.nested

end Parts

theorem parts (n m calls : Nat) (r : DdlRule α) : r.Parts n m calls := by
  have room {β : Type} (name : Nonterminal β) :
      ∀ levels ≤ 2, name.room levels ≤ name.rule.room levels := by
    cases name <;> decide
  induction calls generalizing α with
  | zero => exact .of_names (n := n) (m := m) (fun _ _ _ _ _ _ => .inl rfl) r
  | succ calls ih =>
    refine .of_names (fun name levels c two below below' => ?_) r
    exact (ih name.rule two below below').mono (Nat.add_le_add_left (room name levels two) _)

end Rule
end TableDdl
