import TableDdl.Proofs.Grammar.Limit

/-!
# A lower limit

What a lower limit of nesting takes away from the readings of a rule. A match or failure within one
token of the start may become a failure that is no further, and what follows must not make up for
it: this can be read off a rule. Main statement: where a rule fails early, it fails early with a
lower limit, too.
-/
namespace TableDdl

variable {N : Type → Type} {α β : Type}

namespace Rule

/-- No name and no level of nesting is in the rule. -/
def flat {α : Type} : Rule N α → Bool
  | .token _ => true
  | .atEnd => true
  | .call _ => false
  | .map _ r => r.flat
  | .convert _ r => r.flat
  | .both a b => a.flat && b.flat
  | .either a b => a.flat && b.flat
  | .optional r => r.flat
  | .many r => r.flat
  | .sepBy1 item separator => item.flat && separator.flat
  | .nested _ => false

end Rule

namespace Engine

variable {e : Engine Unit} {m n : Nat}

/-- The attempts at a rule without nesting come to the same. -/
def SameIfFlat (r : Rule N α) (a a' : Attempt Unit α) : Prop :=
  r.flat = true → ∀ c, (a' c ()).1 = (a c ()).1

namespace SameIfFlat

variable {r : Rule N α} {s : Rule N β} {a a' : Attempt Unit α} {b b' : Attempt Unit β}

theorem map (f : α → β) (ha : SameIfFlat r a a') :
    SameIfFlat (.map f r) (Engine.map f a) (Engine.map f a') := fun flat c => by
  rw [fst_map, fst_map, ha flat]

theorem convert (f : α → Except String β) (ha : SameIfFlat r a a') :
    SameIfFlat (.convert f r) ((e.limited n).convert f a) ((e.limited m).convert f a') :=
  fun flat c => by
    simp only [fst_convert, ha flat]

theorem both (ha : SameIfFlat r a a') (hb : SameIfFlat s b b') :
    SameIfFlat (.both r s) (Engine.both a b) (Engine.both a' b') := fun flat c => by
  obtain ⟨flatA, flatB⟩ := Bool.and_eq_true_iff.1 flat
  simp only [fst_both, ha flatA, hb flatB]

theorem either {s : Rule N α} {b b' : Attempt Unit α} (ha : SameIfFlat r a a')
    (hb : SameIfFlat s b b') : SameIfFlat (.either r s) ((e.limited n).either a b)
      ((e.limited m).either a' b') := fun flat c => by
  obtain ⟨flatA, flatB⟩ := Bool.and_eq_true_iff.1 flat
  simp only [fst_either, ha flatA, hb flatB]
  rfl

theorem optional (ha : SameIfFlat r a a') : SameIfFlat (.optional r) ((e.limited n).optional a)
    ((e.limited m).optional a') := fun flat c => by
  simp only [fst_optional, ha flat]
  rfl

theorem manyUpTo (same : ∀ c, (a' c ()).1 = (a c ()).1) (bound : Nat) (c : Cursor) :
    ((e.limited m).manyUpTo a' bound c ()).1 = ((e.limited n).manyUpTo a bound c ()).1 := by
  induction bound generalizing c with
  | zero => rfl
  | succ bound ih =>
    simp only [fst_manyUpTo_succ, same, ih]
    rfl

theorem followersUpTo (same : ∀ c, (a' c ()).1 = (a c ()).1) (bound : Nat) (c : Cursor) :
    ((e.limited m).followersUpTo a' bound c ()).1 =
      ((e.limited n).followersUpTo a bound c ()).1 := by
  induction bound generalizing c with
  | zero => rfl
  | succ bound ih =>
    simp only [fst_followersUpTo_succ, same, ih]
    rfl

theorem sepBy1 (ha : SameIfFlat r a a') (hb : SameIfFlat s b b') : SameIfFlat (.sepBy1 r s)
    ((e.limited n).sepBy1 a b) ((e.limited m).sepBy1 a' b') := fun flat c => by
  obtain ⟨flatA, flatB⟩ := Bool.and_eq_true_iff.1 flat
  have round := (hb.both ha).map Prod.snd (Bool.and_eq_true_iff.2 ⟨flatB, flatA⟩)
  simp only [fst_sepBy1, ha flatA]
  congr 1
  funext x next
  rw [followersUpTo round]

end SameIfFlat

theorem flat_relation (e : Engine Unit) (n m : Nat) (grammar : ∀ {β : Type}, N β → Rule N β) :
    RunRelation (e.limited n) (e.limited m) grammar SameIfFlat where
  token _ _ _ := rfl
  atEnd _ _ := rfl
  unanswered _ := nofun
  call _ := nofun
  map f ha := ha.map f
  convert f ha := ha.convert f
  both ha hb := ha.both hb
  either ha hb := ha.either hb
  optional ha := ha.optional
  many ha flat c := SameIfFlat.manyUpTo (ha flat) _ c
  sepBy1 ha hb := ha.sepBy1 hb
  nested _ := nofun

end Engine

/-- A rule without nesting reads the same with every limit. -/
theorem Rule.readTo_of_flat {n m calls : Nat} {r : DdlRule α} (flat : r.flat = true)
    (c : Cursor) : r.readTo m calls c = r.readTo n calls c :=
  (Engine.flat_relation (Engine.standard Keywords.mysql).silent n m Nonterminal.rule).run calls r
    flat c

namespace Outcome

/-- The outcome is that match, unless the reading goes on forever. -/
def MatchesIfAny (o : Outcome α) (x : α) (next : Cursor) : Prop :=
  o = .diverged ∨ o = .matched x next

/-- The outcome is a failure no further than there, unless the reading goes on forever. -/
def FailsIfAny (o : Outcome α) (p : Nat) : Prop := o = .diverged ∨ ∃ f, o = .failed f ∧ f.pos ≤ p

variable {o : Outcome α} {x : α} {next : Cursor} {p : Nat}

theorem MatchesIfAny.handle {k : α → Cursor → Outcome β} {f : Failure → Outcome β} {y : β}
    {mid : Cursor} (h : o.MatchesIfAny x mid) (h' : (k x mid).MatchesIfAny y next) :
    (o.handle k f).MatchesIfAny y next := by
  rcases h with rfl | rfl
  · exact .inl rfl
  · exact h'

theorem MatchesIfAny.map (f : α → β) (h : o.MatchesIfAny x next) :
    (o.map f).MatchesIfAny (f x) next :=
  h.handle (.inr rfl)

theorem FailsIfAny.handle_matched {k : α → Cursor → Outcome β} {f : Failure → Outcome β} {y : β}
    (h : o.FailsIfAny p) (h' : ∀ g, g.pos ≤ p → (f g).MatchesIfAny y next) :
    (o.handle k f).MatchesIfAny y next := by
  rcases h with rfl | ⟨g, rfl, near⟩
  · exact .inl rfl
  · exact h' g near

theorem FailsIfAny.handle {k : α → Cursor → Outcome β} {f : Failure → Outcome β} {q : Nat}
    (h : o.FailsIfAny p) (h' : ∀ g, g.pos ≤ p → (f g).FailsIfAny q) :
    (o.handle k f).FailsIfAny q := by
  rcases h with rfl | ⟨g, rfl, near⟩
  · exact .inl rfl
  · exact h' g near

theorem FailsIfAny.mono {q : Nat} (h : o.FailsIfAny p) (le : p ≤ q) : o.FailsIfAny q := by
  rcases h with rfl | ⟨f, rfl, near⟩
  · exact .inl rfl
  · exact .inr ⟨f, rfl, Nat.le_trans near le⟩

end Outcome

/-- A match of fewer tokens is not lost with a lower limit. -/
def Nonterminal.firm {α : Type} : Nonterminal α → Nat
  | .expression => 1
  | .condition | .term | .select => 2

namespace Rule

/-- The same for any rule. -/
def firm {α : Type} : DdlRule α → Nat
  | .token _ => 2
  | .atEnd => 2
  | .call name => name.firm
  | .map _ r => r.firm
  | .convert _ _ => 2
  | .both a b => min (a.firm + b.least) (a.least + b.firm)
  | .either a b => min a.firm b.firm
  | .optional r => r.firm
  | .many _ => 2
  | .sepBy1 item _ => min item.firm 2
  | .nested r => r.least

/-- What ends within `k` tokens of the start is the same with a lower limit, or a failure that is
no further. -/
def sheds {α : Type} (k : Nat) : DdlRule α → Bool
  | .token _ => true
  | .atEnd => true
  | .call _ => true
  | .map _ r => r.sheds k
  | .convert _ r => r.flat
  | .both a b => a.sheds k && b.sheds (k - a.least)
  | .either a b => a.sheds 1 && b.sheds k && decide (2 ≤ a.firm) && decide (1 ≤ b.least)
  | .optional r => r.sheds 1 && decide (k < r.firm)
  | .many r => r.sheds 1 && decide (2 ≤ r.firm)
  | .sepBy1 item separator => item.sheds k &&
    (separator.sheds 1 && item.sheds (1 - separator.least)) &&
    decide (2 ≤ min (separator.firm + item.least) (separator.least + item.firm))
  | .nested r => r.sheds k

/-- What the checks on the rule promise of a lower limit. -/
structure Lowers (n m calls : Nat) (r : DdlRule α) : Prop where
  /-- What ends with a match. -/
  firm : ∀ {k : Nat} {c next : Cursor} {x : α}, r.sheds k = true →
    r.readTo n calls c = .matched x next → next.pos < c.pos + r.firm →
      (r.readTo m calls c).MatchesIfAny x next
  /-- What ends near the start. -/
  early : ∀ {k : Nat} {c next : Cursor} {x : α}, k ≤ 1 → r.sheds k = true →
    r.readTo n calls c = .matched x next → next.pos ≤ c.pos + k →
      (r.readTo m calls c).MatchesIfAny x next ∨ (r.readTo m calls c).FailsIfAny next.pos
  /-- What ends with a failure. -/
  fails : ∀ {k : Nat} {c : Cursor} {f : Failure}, k ≤ 1 → r.sheds k = true →
    r.readTo n calls c = .failed f → f.pos ≤ c.pos + k → (r.readTo m calls c).FailsIfAny f.pos

namespace Lowers

variable {n m calls : Nat} {r : DdlRule α} {s : DdlRule β}

theorem of_flat (flat : r.flat = true) : r.Lowers n m calls where
  firm _ found _ := .inr ((readTo_of_flat flat _).trans found)
  early _ _ found _ := .inl (.inr ((readTo_of_flat flat _).trans found))
  fails _ _ found _ := .inr ⟨_, (readTo_of_flat flat _).trans found, Nat.le_refl _⟩

theorem unanswered (name : Nonterminal α) : Lowers n m 0 (.call name) where
  firm _ := nofun
  early _ _ := nofun
  fails _ _ := nofun

theorem call {name : Nonterminal α} (h : name.rule.Lowers n m calls)
    (sheds : ∀ k ≤ 1, name.rule.sheds k = true) (firm : name.firm ≤ name.rule.firm) :
    Lowers n m (calls + 1) (.call name) where
  firm _ found few := h.firm (sheds 0 (by omega)) found (by simp only [Rule.firm] at few; omega)
  early one _ found near := h.early one (sheds _ one) found near
  fails one _ found near := h.fails one (sheds _ one) found near

theorem map (f : α → β) (h : r.Lowers n m calls) : (Rule.map f r).Lowers n m calls where
  firm sheds found few := by
    rw [readTo_map, Outcome.map_eq_matched_iff] at found
    obtain ⟨y, matched, rfl⟩ := found
    rw [readTo_map]
    exact (h.firm sheds matched few).map f
  early one sheds found near := by
    rw [readTo_map, Outcome.map_eq_matched_iff] at found
    obtain ⟨y, matched, rfl⟩ := found
    rw [readTo_map]
    exact (h.early one sheds matched near).imp (·.map f) (·.handle fun g low => .inr ⟨g, rfl, low⟩)
  fails one sheds found near := by
    rw [readTo_map, Outcome.map_eq_failed_iff] at found
    rw [readTo_map]
    exact (h.fails one sheds found near).handle fun g low => .inr ⟨g, rfl, low⟩

theorem both (hr : r.Lowers n m calls) (hs : s.Lowers n m calls) :
    (Rule.both r s).Lowers n m calls where
  firm {k c next _} sheds found few := by
    obtain ⟨shedsR, shedsS⟩ := Bool.and_eq_true_iff.1 sheds
    obtain ⟨y, mid, z, first, second, rfl⟩ := readTo_both_matched.1 found
    have := le_of_readTo first
    have := le_of_readTo second
    simp only [Rule.firm] at few
    rw [readTo_both]
    exact (hr.firm shedsR first (by omega)).handle
      ((hs.firm shedsS second (by omega)).map (y, ·))
  early {k c next _} one sheds found near := by
    obtain ⟨shedsR, shedsS⟩ := Bool.and_eq_true_iff.1 sheds
    obtain ⟨y, mid, z, first, second, rfl⟩ := readTo_both_matched.1 found
    have := le_of_readTo first
    have := (reaches_of_readTo second).le
    rw [readTo_both]
    -- The first part comes out the same, or it fails at once and the sequence with it.
    rcases hr.early one shedsR first (by omega) with same | fails
    · rcases same with diverged | same
      · exact .inl (.inl (by rw [diverged]; rfl))
      · rw [same, Outcome.handle_matched]
        exact (hs.early (by omega) shedsS second (by omega)).imp (·.map (y, ·))
          (·.handle fun g low => .inr ⟨g, rfl, low⟩)
    · exact .inr (fails.handle fun g low => .inr ⟨g, rfl, by omega⟩)
  fails {k c f} one sheds found near := by
    obtain ⟨shedsR, shedsS⟩ := Bool.and_eq_true_iff.1 sheds
    rw [readTo_both] at found ⊢
    cases first : r.readTo n calls c with
    | matched y mid =>
      rw [first, Outcome.handle_matched, Outcome.map_eq_failed_iff] at found
      have := le_of_readTo first
      have := le_of_readTo_failed found
      rcases hr.early one shedsR first (by omega) with same | fails
      · rcases same with diverged | same
        · exact .inl (by rw [diverged]; rfl)
        · rw [same, Outcome.handle_matched]
          exact (hs.fails (by omega) shedsS found (by omega)).handle
            fun g low => .inr ⟨g, rfl, low⟩
      · exact fails.handle fun g low => .inr ⟨g, rfl, by omega⟩
    | failed g =>
      rw [first, Outcome.handle_failed, Outcome.failed.injEq] at found
      subst found
      exact (hr.fails one shedsR first near).handle fun g low => .inr ⟨g, rfl, low⟩
    | diverged => rw [first] at found; cases found

theorem either {s : DdlRule α} (hr : r.Lowers n m calls) (hs : s.Lowers n m calls) :
    (Rule.either r s).Lowers n m calls where
  firm {k c next _} sheds found few := by
    simp only [Rule.sheds, Bool.and_eq_true, decide_eq_true_eq] at sheds
    obtain ⟨⟨⟨shedsR, shedsS⟩, -⟩, -⟩ := sheds
    simp only [Rule.firm] at few
    rw [readTo_either]
    rcases readTo_either_matched.1 found with first | ⟨f, failed, near, second⟩
    · exact (hr.firm shedsR first (by omega)).handle (.inr rfl)
    · refine (hr.fails (Nat.le_refl 1) shedsR failed near).handle_matched fun g low => ?_
      rw [if_neg (by omega)]
      exact (hs.firm shedsS second (by omega)).handle (.inr rfl)
  early {k c next _} one sheds found near := by
    simp only [Rule.sheds, Bool.and_eq_true, decide_eq_true_eq] at sheds
    obtain ⟨⟨⟨shedsR, shedsS⟩, firm⟩, some⟩ := sheds
    rw [readTo_either]
    rcases readTo_either_matched.1 found with first | ⟨f, failed, early, second⟩
    · exact .inl ((hr.firm shedsR first (by omega)).handle (.inr rfl))
    · have taken := le_of_readTo second
      rcases hr.fails (Nat.le_refl 1) shedsR failed early with diverged | ⟨g, failed', low⟩
      · exact .inl (.inl (by rw [diverged]; rfl))
      · rw [failed', Outcome.handle_failed, if_neg (by omega)]
        refine (hs.early one shedsS second near).imp (·.handle (.inr rfl))
          (·.handle fun g' low' => .inr ⟨_, rfl, ?_⟩)
        split
        · exact low'
        · rw [Failure.deeper_pos]
          omega
  fails {k c f} one sheds found near := by
    simp only [Rule.sheds, Bool.and_eq_true, decide_eq_true_eq] at sheds
    obtain ⟨⟨⟨shedsR, shedsS⟩, -⟩, -⟩ := sheds
    obtain ⟨g, g', failed, failed', rfl⟩ := readTo_either_failed found (by omega)
    rw [Failure.deeper_pos] at near ⊢
    rw [readTo_either]
    refine (hr.fails (Nat.le_refl 1) shedsR failed (by omega)).handle fun h low => ?_
    rw [if_neg (by omega)]
    refine (hs.fails one shedsS failed' (by omega)).handle fun h' low' => .inr ⟨_, rfl, ?_⟩
    split
    · omega
    · rw [Failure.deeper_pos]
      omega

theorem optional (h : r.Lowers n m calls) : r.optional.Lowers n m calls where
  firm {k c next _} sheds found few := by
    simp only [Rule.sheds, Bool.and_eq_true, decide_eq_true_eq] at sheds
    rw [readTo_optional]
    rcases readTo_optional_matched.1 found with ⟨x, first, rfl⟩ | ⟨f, failed, near, rfl, rfl⟩
    · exact (h.firm sheds.1 first few).handle (.inr rfl)
    · refine (h.fails (Nat.le_refl 1) sheds.1 failed near).handle_matched fun g low => ?_
      rw [if_neg (by omega)]
      exact .inr rfl
  early {k c next _} one sheds found near := by
    simp only [Rule.sheds, Bool.and_eq_true, decide_eq_true_eq] at sheds
    refine .inl ?_
    rw [readTo_optional]
    rcases readTo_optional_matched.1 found with ⟨x, first, rfl⟩ | ⟨f, failed, early, rfl, rfl⟩
    · exact (h.firm sheds.1 first (by omega)).handle (.inr rfl)
    · refine (h.fails (Nat.le_refl 1) sheds.1 failed early).handle_matched fun g low => ?_
      rw [if_neg (by omega)]
      exact .inr rfl
  fails {k c f} one sheds found near := by
    have := readTo_optional_failed found
    omega

/-- A repetition whose rounds are not lost. -/
theorem of_rounds (h : r.Lowers n m calls) (sheds : r.sheds 1 = true) (two : 2 ≤ r.firm)
    {go go' stuck : Cursor → Outcome (List α)}
    (round : Repeats (r.readTo n calls) stuck go)
    (round' : Repeats (r.readTo m calls) stuck go')
    (forward : ∀ {c next : Cursor} {xs : List α}, go c = .matched xs next → c.pos ≤ next.pos)
    {c next : Cursor} {xs : List α} (found : go c = .matched xs next)
    (few : next.pos < c.pos + 2) : (go' c).MatchesIfAny xs next := by
  induction length : c.rest.length using Nat.strongRecOn generalizing c xs with
  | ind length' ih =>
    rw [round c] at found
    rw [round' c]
    cases first : r.readTo n calls c with
    | matched x mid =>
      rw [first, Outcome.handle_matched] at found
      have taken := (reaches_of_readTo first).le
      by_cases same : mid.pos = c.pos
      · rw [if_pos same] at found
        refine (h.firm sheds first (by omega)).handle ?_
        rw [if_pos same]
        exact .inr found
      · rw [if_neg same, Outcome.map_eq_matched_iff] at found
        obtain ⟨ys, later, rfl⟩ := found
        have := forward later
        have shorter := (reaches_of_readTo first).length_lt same
        refine (h.firm sheds first (by omega)).handle ?_
        rw [if_neg same]
        exact (ih _ (length ▸ shorter) later (by omega) rfl).map (x :: ·)
    -- The failure that ended the repetition gets no further under the lower limit.
    | failed f =>
      rw [first, Outcome.handle_failed] at found
      split at found
      · cases found
      · rename_i near
        refine (h.fails (Nat.le_refl 1) sheds first (by omega)).handle_matched fun g low => ?_
        rw [if_neg (by omega)]
        exact .inr found
    | diverged =>
      rw [first] at found
      cases found

theorem many (h : r.Lowers n m calls) : r.many.Lowers n m calls := by
  have firm {k : Nat} {c next : Cursor} {xs : List α} (sheds : r.many.sheds k = true)
      (found : r.many.readTo n calls c = .matched xs next) (few : next.pos < c.pos + 2) :
      (r.many.readTo m calls c).MatchesIfAny xs next := by
    simp only [Rule.sheds, Bool.and_eq_true, decide_eq_true_eq] at sheds
    exact h.of_rounds sheds.1 sheds.2 repeats_readTo_many repeats_readTo_many
      (fun found => (reaches_of_readTo found).le) found few
  refine ⟨firm, fun one sheds found near => .inl (firm sheds found (by omega)), ?_⟩
  intro k c f one sheds found near
  have := lt_of_many_readTo_failed found
  omega

theorem sepBy1 (hr : r.Lowers n m calls) (hs : s.Lowers n m calls) :
    (r.sepBy1 s).Lowers n m calls := by
  have rounds {k : Nat} {c next : Cursor} {xs : List α} (sheds : (r.sepBy1 s).sheds k = true)
      (found : followersTo n calls (s *> r) c = .matched xs next) (few : next.pos < c.pos + 2) :
      (followersTo m calls (s *> r) c).MatchesIfAny xs next := by
    simp only [Rule.sheds, Bool.and_eq_true, decide_eq_true_eq] at sheds
    exact ((hs.both hr).map Prod.snd).of_rounds (Bool.and_eq_true_iff.2 sheds.1.2) sheds.2
      repeats_followersTo repeats_followersTo le_of_followersTo found few
  have item {k : Nat} (sheds : (r.sepBy1 s).sheds k = true) : r.sheds k = true := by
    simp only [Rule.sheds, Bool.and_eq_true] at sheds
    exact sheds.1.1
  refine ⟨fun {k c next xs} sheds found few => ?_, fun {k c next xs} one sheds found near => ?_,
    fun {k c f} one sheds found near => ?_⟩
  · obtain ⟨x, mid, ys, first, later, rfl⟩ := readTo_sepBy1_matched.1 found
    have := (reaches_of_readTo first).le
    have := le_of_followersTo later
    simp only [Rule.firm] at few
    rw [readTo_sepBy1]
    exact (hr.firm (item sheds) first (by omega)).handle ((rounds sheds later (by omega)).map _)
  · obtain ⟨x, mid, ys, first, later, rfl⟩ := readTo_sepBy1_matched.1 found
    have := (reaches_of_readTo first).le
    have := le_of_followersTo later
    rw [readTo_sepBy1]
    rcases hr.early one (item sheds) first (by omega) with same | fails
    · exact .inl (same.handle ((rounds sheds later (by omega)).map _))
    · exact .inr (fails.handle fun g low => .inr ⟨g, rfl, by omega⟩)
  · rw [readTo_sepBy1] at found ⊢
    cases first : r.readTo n calls c with
    | matched x mid =>
      rw [first, Outcome.handle_matched, Outcome.map_eq_failed_iff] at found
      have := (reaches_of_readTo first).le
      have := lt_of_followersTo_failed found
      omega
    | failed g =>
      rw [first, Outcome.handle_failed, Outcome.failed.injEq] at found
      subst found
      exact (hr.fails one (item sheds) first near).handle fun g low => .inr ⟨g, rfl, low⟩
    | diverged => rw [first] at found; cases found

theorem nested (lower : m ≤ n) (h : r.Lowers n m calls) : r.nested.Lowers n m calls where
  firm {k c next x} sheds found few := by
    have := le_of_readTo found
    simp only [Rule.firm] at few
    simp only [Rule.least] at this
    omega
  early {k c next x} one sheds found near := by
    obtain ⟨room, inner, first, rfl⟩ := readTo_nested_matched.1 found
    have := (reaches_of_readTo found).le
    rw [readTo_nested]
    split
    · exact .inr (.inr ⟨_, rfl, this⟩)
    · exact (h.early one sheds first near).imp (·.handle (.inr rfl))
        (·.handle fun g low => .inr ⟨g, rfl, low⟩)
  fails {k c f} one sheds found near := by
    have := le_of_readTo_failed found
    rw [readTo_nested] at found ⊢
    by_cases tooDeep : m ≤ c.depth
    · rw [if_pos tooDeep]
      exact .inr ⟨_, rfl, this⟩
    · rw [if_neg (by omega)] at found
      rw [if_neg tooDeep]
      cases first : r.readTo n calls { c with depth := c.depth + 1 } with
      | matched x next => rw [first] at found; cases found
      | failed g =>
        rw [first, Outcome.handle_failed, Outcome.failed.injEq] at found
        subst found
        exact (h.fails one sheds first near).handle fun g low => .inr ⟨g, rfl, low⟩
      | diverged => rw [first] at found; cases found

/-- Where the named rules keep the promises, every rule does. -/
theorem of_names (lower : m ≤ n)
    (names : ∀ {β : Type} (name : Nonterminal β), Lowers n m calls (.call name))
    (r : DdlRule α) : r.Lowers n m calls := by
  induction r with
  | token t => exact .of_flat rfl
  | atEnd => exact .of_flat rfl
  | call name => exact names name
  | map f _ ih => exact ih.map f
  | convert f r _ =>
    have same (flat : r.flat = true) (c : Cursor) :
        (Rule.convert f r).readTo m calls c = (Rule.convert f r).readTo n calls c :=
      readTo_of_flat (r := .convert f r) flat c
    exact ⟨fun flat found _ => .inr ((same flat _).trans found),
      fun _ flat found _ => .inl (.inr ((same flat _).trans found)),
      fun _ flat found _ => .inr ⟨_, (same flat _).trans found, Nat.le_refl _⟩⟩
  | both _ _ iha ihb => exact iha.both ihb
  | either _ _ iha ihb => exact iha.either ihb
  | optional _ ih => exact ih.optional
  | many _ ih => exact ih.many
  | sepBy1 _ _ iha ihb => exact iha.sepBy1 ihb
  | nested _ ih => exact ih.nested lower

end Lowers

theorem lowers {n m : Nat} (lower : m ≤ n) (calls : Nat) (r : DdlRule α) :
    r.Lowers n m calls := by
  have sheds {β : Type} (name : Nonterminal β) : ∀ k ≤ 1, name.rule.sheds k = true := by
    cases name <;> decide
  have firm {β : Type} (name : Nonterminal β) : name.firm ≤ name.rule.firm := by
    cases name <;> decide
  induction calls generalizing α with
  | zero => exact .of_names lower (fun name => .unanswered name) r
  | succ calls ih =>
    exact .of_names lower (fun name => .call (ih name.rule) (sheds name) (firm name)) r

end Rule
end TableDdl
