import TableDdl.Proofs.Grammar.Accepting
import TableDdl.Proofs.Grammar.Failing
import TableDdl.Proofs.Grammar.Locality
import TableDdl.Proofs.Grammar.Sides

/-!
# What stands behind a wall

A closing parenthesis is a wall: nothing that may be given up again begins with it. An attempt
that has passed it can only go on or fail for good. What a rule makes of the tokens up to a wall
therefore does not depend on those behind it.
-/
namespace TableDdl

variable {N : Type → Type} {α β : Type}

namespace Rule

variable (stop : Terminal → Bool)

/-- Nothing that may be given up again begins with a marked terminal. -/
def shuns {α : Type} : Rule N α → Bool
  | .token _ => true
  | .atEnd => true
  | .call _ => true
  | .map _ r => r.shuns
  | .convert _ r => r.isToken && !(r.sides stop).opens
  | .both a b => a.shuns && b.shuns
  | .either a b => a.shuns && b.shuns && !(a.sides stop).opens
  | .optional r => r.shuns && !(r.sides stop).opens
  | .many r => r.shuns && !(r.sides stop).opens
  | .sepBy1 item separator =>
    item.shuns && separator.shuns && !((separator.sides stop).both (item.sides stop)).opens
  | .nested r => r.shuns

theorem empty_sides (r : Rule N α) : (r.sides stop).empty = r.nullable := by
  induction r with
  | both a b iha ihb => simp [sides, Sides.both, nullable, iha, ihb]
  | either a b iha ihb => simp [sides, Sides.either, nullable, iha, ihb]
  | sepBy1 item separator ih _ => simp [sides, Sides.both, Sides.orNone, nullable, ih]
  | _ => simp_all [sides, Sides.orNone, nullable]

end Rule

/-- The outcome lies at most at the given place. -/
def Outcome.Within (w : Nat) : Outcome α → Prop
  | .matched _ next => next.pos ≤ w
  | .failed f => f.pos ≤ w
  | .diverged => True

/-- The outcome lies behind the given place. -/
def Outcome.Past (w : Nat) : Outcome α → Prop
  | .matched _ next => w < next.pos
  | .failed f => w < f.pos
  | .diverged => True

namespace Outcome

variable {w : Nat} {o : Outcome α} {k : α → Cursor → Outcome β} {r : Failure → Outcome β}

theorem Within.handle (h : o.Within w)
    (matched : ∀ x next, o = .matched x next → next.pos ≤ w → (k x next).Within w)
    (failed : ∀ f, f.pos ≤ w → (r f).Within w) : (o.handle k r).Within w := by
  cases o with
  | matched x next => exact matched x next rfl h
  | failed f => exact failed f h
  | diverged => trivial

theorem Within.map (f : α → β) (h : o.Within w) : (o.map f).Within w := by
  cases o <;> exact h

theorem Past.handle (h : o.Past w) (matched : ∀ x next, w < next.pos → (k x next).Past w)
    (failed : ∀ f, o = .failed f → w < f.pos → (r f).Past w) : (o.handle k r).Past w := by
  cases o with
  | matched x next => exact matched x next h
  | failed f => exact failed f rfl h
  | diverged => trivial

theorem Past.map (f : α → β) (h : o.Past w) : (o.map f).Past w := by
  cases o <;> exact h

end Outcome

namespace Rule

variable {calls w : Nat} {stop : Terminal → Bool} {wall : Token} {r : DdlRule α} {s : DdlRule β}
  {c c' : Cursor}

/-- In front of the token the rule takes nothing, and if it fails, then there. -/
def StaysAt (calls : Nat) (wall : Token) (r : DdlRule α) : Prop :=
  ∀ c rest, c.rest = wall :: rest → (r.read calls c).Within c.pos

theorem eq_of_read_of_le {x : α} {next : Cursor} (read : r.read calls c = .matched x next)
    (stays : next.pos ≤ c.pos) : next = c := by
  obtain ⟨taken, whole, pos, depth⟩ := reaches_of_read read
  obtain rfl : taken = [] := List.eq_nil_of_length_eq_zero (by omega)
  obtain ⟨p, rest, d⟩ := c
  obtain ⟨p', rest', d'⟩ := next
  simp_all

theorem StaysAt.both (ha : r.StaysAt calls wall) (hb : r.nullable = true → s.StaysAt calls wall) :
    (Rule.both r s).StaysAt calls wall := by
  intro c rest front
  rw [read_both]
  refine (ha c rest front).handle (fun x mid read stays => ?_) fun _ h => h
  obtain rfl := eq_of_read_of_le read stays
  cases empty : r.nullable with
  | true => exact (hb empty mid rest front).map _
  | false => exact absurd rfl (consumes_of_some empty read)

theorem staysAt_token {t : Terminal} (refused : t.accept Keywords.mysql wall = none) :
    (Rule.token t).StaysAt calls wall := by
  intro c rest front
  simp [read_token, front, refused, Outcome.Within]

theorem staysAt_atEnd : (Rule.atEnd : DdlRule Unit).StaysAt calls wall := by
  intro c rest front
  simp [read, Engine.answer, Engine.run_atEnd, Engine.atEnd, Engine.fail, front, Outcome.Within]

theorem StaysAt.map (f : α → β) (h : r.StaysAt calls wall) :
    (Rule.map f r).StaysAt calls wall := by
  intro c rest front
  rw [read_map]
  exact (h c rest front).map f

theorem StaysAt.convert (f : α → Except String β) (h : r.StaysAt calls wall) :
    (Rule.convert f r).StaysAt calls wall := by
  intro c rest front
  rw [read_convert]
  refine (h c rest front).handle (fun x next _ stays => ?_) fun _ stays => stays
  cases f x
  · exact Nat.le_refl _
  · exact stays

theorem StaysAt.either {s : DdlRule α} (hr : r.StaysAt calls wall) (hs : s.StaysAt calls wall) :
    (Rule.either r s).StaysAt calls wall := by
  intro c rest front
  rw [read_either]
  refine (hr c rest front).handle (fun _ _ _ stays => stays) fun f near => ?_
  rw [if_neg (by omega)]
  refine (hs c rest front).handle (fun _ _ _ stays => stays) fun g near' => ?_
  rw [if_neg (by omega)]
  simp only [Outcome.Within, Failure.deeper_pos]
  omega

theorem StaysAt.optional (h : r.StaysAt calls wall) : (Rule.optional r).StaysAt calls wall := by
  intro c rest front
  rw [read_optional]
  refine (h c rest front).handle (fun _ _ _ stays => stays) fun f near => ?_
  rw [if_neg (by omega)]
  exact Nat.le_refl _

theorem StaysAt.many (h : r.StaysAt calls wall) : (Rule.many r).StaysAt calls wall := by
  intro c rest front
  rw [read_many]
  refine (h c rest front).handle (fun x next read stays => ?_) fun f near => ?_
  · rw [if_pos (by rw [eq_of_read_of_le read stays])]
    exact Nat.le_refl _
  · rw [if_neg (by omega)]
    exact Nat.le_refl _

theorem StaysAt.followers (h : r.StaysAt calls wall) {rest : List Token}
    (front : c.rest = wall :: rest) : (followers calls r c).Within c.pos := by
  rw [followers_eq]
  refine (h c rest front).handle (fun y next read stays => ?_) fun f near => ?_
  · rw [if_pos (by rw [eq_of_read_of_le read stays])]
    trivial
  · rw [if_neg (by omega)]
    exact Nat.le_refl _

/-- The separator comes in front of the token only after an item that takes nothing. -/
theorem StaysAt.sepBy1 (hr : r.StaysAt calls wall)
    (hs : r.nullable = true → s.StaysAt calls wall) : (r.sepBy1 s).StaysAt calls wall := by
  intro c rest front
  rw [read_sepBy1]
  refine (hr c rest front).handle (fun x mid read stays => ?_) fun _ stays => stays
  obtain rfl := eq_of_read_of_le read stays
  cases empty : r.nullable with
  | false => exact absurd rfl (consumes_of_some empty read)
  | true =>
    have round : (s *> r).StaysAt calls wall := ((hs empty).both fun _ => hr).map Prod.snd
    exact (round.followers front).map _

theorem StaysAt.nested (h : r.StaysAt calls wall) : (Rule.nested r).StaysAt calls wall := by
  intro c rest front
  rw [read_nested]
  split
  · exact Nat.le_refl _
  · exact (h ⟨c.pos, c.rest, c.depth + 1⟩ rest front).handle (fun _ _ _ stays => stays)
      fun _ stays => stays

theorem staysAt_of_calls (names : ∀ {α : Type} (name : Nonterminal α),
      (Rule.call name).StaysAt calls wall)
    (refused : ∀ t, stop t = false → t.accept Keywords.mysql wall = none)
    (shut : (r.sides stop).opens = false) : r.StaysAt calls wall := by
  induction r with
  | token t => exact staysAt_token (refused t shut)
  | atEnd => exact staysAt_atEnd
  | call name => exact names name
  | map f r ih => exact (ih shut).map f
  | convert f r ih => exact (ih shut).convert f
  | both a b iha ihb =>
    obtain ⟨first, second⟩ := Bool.or_eq_false_iff.1 shut
    refine (iha first).both fun empty => ihb ?_
    rw [empty_sides] at second
    simpa [empty] using second
  | either a b iha ihb =>
    obtain ⟨first, second⟩ := Bool.or_eq_false_iff.1 shut
    exact (iha first).either (ihb second)
  | optional r ih => exact (ih shut).optional
  | many r ih => exact (ih shut).many
  | sepBy1 item separator ih ihs =>
    obtain ⟨first, later⟩ := Bool.or_eq_false_iff.1 shut
    refine (ih first).sepBy1 fun empty => ihs ?_
    rw [empty_sides, empty, Bool.true_and] at later
    exact (Bool.or_eq_false_iff.1 later).1
  | nested r ih => exact (ih shut).nested

theorem staysAt_call (calls : Nat) (name : Nonterminal α)
    (refused : ∀ t, stop t = false → t.accept Keywords.mysql wall = none)
    (named : ∀ {α : Type} (name : Nonterminal α), (name.rule.sides stop).opens = false) :
    (Rule.call name).StaysAt calls wall := by
  induction calls generalizing α with
  | zero => exact fun _ _ _ => trivial
  | succ calls ih => exact staysAt_of_calls (r := name.rule) ih refused (named name)

end Rule

/-- The same place before tokens that agree up to the wall, which stands at the index `w`. -/
structure Cursor.Walled (wall : Token) (w : Nat) (c c' : Cursor) : Prop where
  pos : c'.pos = c.pos
  depth : c'.depth = c.depth
  agree : ∃ inner rest rest', c.rest = inner ++ wall :: rest ∧ c'.rest = inner ++ wall :: rest' ∧
    c.pos + inner.length = w

/-- The outcomes agree up to the wall, or both lie behind it. -/
inductive Outcome.Walled (wall : Token) (w : Nat) : Outcome α → Outcome α → Prop
  | matched {next next' : Cursor} (x : α) : next.Walled wall w next' →
    Walled wall w (.matched x next) (.matched x next')
  | failed {f : Failure} : f.pos ≤ w → Walled wall w (.failed f) (.failed f)
  | past {o o' : Outcome α} : o.Past w → o'.Past w → Walled wall w o o'

namespace Cursor.Walled

variable {wall : Token} {w : Nat} {c c' : Cursor}

theorem le (h : c.Walled wall w c') : c.pos ≤ w := by
  obtain ⟨_, _, _, _, _, here⟩ := h.agree
  omega

theorem symm (h : c.Walled wall w c') : c'.Walled wall w c := by
  obtain ⟨inner, rest, rest', whole, whole', here⟩ := h.agree
  exact ⟨h.pos.symm, h.depth.symm, inner, rest', rest, whole', whole, h.pos ▸ here⟩

theorem deeper (h : c.Walled wall w c') (depth : Nat) :
    ({ c with depth := depth } : Cursor).Walled wall w { c' with depth := depth } :=
  ⟨h.pos, rfl, h.agree⟩

/-- Either the wall comes next, or a token that both texts have. -/
theorem cases (h : c.Walled wall w c') :
    (c.pos = w ∧ ∃ rest rest', c.rest = wall :: rest ∧ c'.rest = wall :: rest') ∨
      ∃ first rest rest', c.rest = first :: rest ∧ c'.rest = first :: rest' ∧
        Cursor.Walled wall w ⟨c.pos + 1, rest, c.depth⟩ ⟨c'.pos + 1, rest', c'.depth⟩ := by
  obtain ⟨inner, rest, rest', whole, whole', here⟩ := h.agree
  cases inner with
  | nil => exact .inl ⟨by simpa using here, rest, rest', whole, whole'⟩
  | cons first inner =>
    refine .inr ⟨first, _, _, whole, whole', by rw [h.pos], h.depth, inner, rest, rest', rfl, rfl, ?_⟩
    rw [List.length_cons] at here
    show c.pos + 1 + inner.length = w
    omega

end Cursor.Walled

namespace Outcome.Walled

variable {wall : Token} {w : Nat} {o o' : Outcome α} {k k' : α → Cursor → Outcome β}
  {r r' : Failure → Outcome β}

theorem map (f : α → β) (h : o.Walled wall w o') : (o.map f).Walled wall w (o'.map f) := by
  cases h with
  | matched x next => exact .matched (f x) next
  | failed near => exact .failed near
  | past h h' => exact .past (h.map f) (h'.map f)

theorem handle (h : o.Walled wall w o')
    (matched : ∀ x next next', o = .matched x next → o' = .matched x next' →
      next.Walled wall w next' → (k x next).Walled wall w (k' x next'))
    (failed : ∀ f, f.pos ≤ w → (r f).Walled wall w (r' f))
    (past : (∀ x next, w < next.pos → (k x next).Past w ∧ (k' x next).Past w))
    (late : ∀ f, o = .failed f → w < f.pos → (r f).Past w)
    (late' : ∀ f, o' = .failed f → w < f.pos → (r' f).Past w) :
    (o.handle k r).Walled wall w (o'.handle k' r') := by
  cases h with
  | matched x next => exact matched x _ _ rfl rfl next
  | failed near => exact failed _ near
  | past h h' =>
    exact .past (h.handle (fun x next far => (past x next far).1) late)
      (h'.handle (fun x next far => (past x next far).2) late')

theorem exists_matched {x : α} {next : Cursor} (h : (Outcome.matched x next).Walled wall w o')
    (near : next.pos ≤ w) : ∃ next', o' = .matched x next' ∧ next.Walled wall w next' := by
  cases h with
  | matched _ walled => exact ⟨_, rfl, walled⟩
  | past far _ => exact absurd far (Nat.not_lt.2 near)

end Outcome.Walled

namespace Rule

variable {calls w : Nat} {stop : Terminal → Bool} {wall : Token} {r : DdlRule α} {s : DdlRule β}
  {c c' : Cursor}

/-- The rule makes the same of all tokens that agree up to the wall. -/
def HoldsUpTo (calls : Nat) (wall : Token) (r : DdlRule α) : Prop :=
  ∀ ⦃w c c'⦄, Cursor.Walled wall w c c' → (r.read calls c).Walled wall w (r.read calls c')

/-- A rule that starts behind the wall stays there. -/
theorem past_read (far : w < c.pos) : (r.read calls c).Past w := by
  cases read : r.read calls c with
  | matched x next => exact Nat.lt_of_lt_of_le far (reaches_of_read read).le
  | failed f => exact Nat.lt_of_lt_of_le far (le_of_failed read)
  | diverged => trivial

/-- An attempt that passes the wall and fails has failed for good, unless it began at the wall. -/
theorem late_of_past (stays : r.StaysAt calls wall) (walled : c.Walled wall w c') {f : Failure}
    (read : r.read calls c = .failed f) (far : w < f.pos) : c.pos + 1 < f.pos := by
  rcases walled.cases with ⟨here, rest, _, front, -⟩ | ⟨_, _, _, -, -, later⟩
  · have near := stays c rest front
    rw [read] at near
    have near : f.pos ≤ c.pos := near
    omega
  · have := later.le
    simp only at this
    omega

theorem HoldsUpTo.map (f : α → β) (h : r.HoldsUpTo calls wall) :
    (Rule.map f r).HoldsUpTo calls wall := fun w c c' walled => by
  rw [read_map, read_map]
  exact (h walled).map f

theorem HoldsUpTo.both (ha : r.HoldsUpTo calls wall) (hb : s.HoldsUpTo calls wall) :
    (Rule.both r s).HoldsUpTo calls wall := fun w c c' walled => by
  rw [read_both, read_both]
  exact (ha walled).handle (fun x _ _ _ _ mid => (hb mid).map _) (fun _ => .failed)
    (fun x _ far => ⟨(past_read far).map _, (past_read far).map _⟩) (fun _ _ far => far)
    fun _ _ far => far

/-- The rounds of a repetition, or what follows the first item of a list. -/
theorem walled_rounds {rounds stuck : Cursor → Outcome (List α)}
    (h : Repeats (r.read calls) stuck rounds) (past : ∀ c, w < c.pos → (rounds c).Past w)
    (ends : ∀ c c', c.Walled wall w c' → (stuck c).Walled wall w (stuck c'))
    (holds : r.HoldsUpTo calls wall) (stays : r.StaysAt calls wall)
    (walled : c.Walled wall w c') : (rounds c).Walled wall w (rounds c') := by
  -- On what is left. In front of the wall the rounds are the same. One that gets past it does so on
  -- both sides, and the repetition with it.
  induction length : c.rest.length using Nat.strongRecOn generalizing c c' with
  | ind n ih =>
    rw [h c, h c']
    refine (holds walled).handle (fun x next next' read read' mid => ?_) (fun f near => ?_)
      (fun x next far => ?_) (fun f read far => ?_) fun f read far => ?_
    · rw [mid.pos, walled.pos]
      split
      · exact ends c c' walled
      · rename_i moved
        have shorter := (reaches_of_read read).length_lt moved
        exact (ih _ (length ▸ shorter) mid rfl).map _
    · rw [walled.pos]
      split
      · exact .failed near
      · exact .matched _ walled
    · have := walled.le
      rw [walled.pos, if_neg (by omega), if_neg (by omega)]
      exact ⟨(past next far).map _, (past next far).map _⟩
    · rw [if_pos (late_of_past stays walled read far)]
      exact far
    · rw [if_pos (late_of_past stays walled.symm read far)]
      exact far

theorem HoldsUpTo.many (holds : r.HoldsUpTo calls wall) (stays : r.StaysAt calls wall) :
    (Rule.many r).HoldsUpTo calls wall := fun _ _ _ walled =>
  walled_rounds repeats_many (fun _ => past_read) (fun _ _ => .matched []) holds stays walled

theorem past_followers (far : w < c.pos) : (followers calls r c).Past w := by
  cases rounds : followers calls r c with
  | matched x next => exact Nat.lt_of_lt_of_le far (followers_matched_iff.1 rounds).le
  | failed f =>
    have := lt_of_followers_failed rounds
    exact Nat.lt_trans far (by omega)
  | diverged => trivial

theorem HoldsUpTo.followers (holds : r.HoldsUpTo calls wall) (stays : r.StaysAt calls wall)
    (walled : c.Walled wall w c') :
    (followers calls r c).Walled wall w (followers calls r c') :=
  walled_rounds repeats_followers (fun _ => past_followers)
    (fun _ _ _ => .past trivial trivial) holds stays walled

theorem HoldsUpTo.sepBy1 (ha : r.HoldsUpTo calls wall) (hb : s.HoldsUpTo calls wall)
    (stays : (Rule.both s r).StaysAt calls wall) : (r.sepBy1 s).HoldsUpTo calls wall :=
  fun w c c' walled => by
  have round : (s *> r).StaysAt calls wall := stays.map Prod.snd
  rw [read_sepBy1, read_sepBy1]
  refine (ha walled).handle (fun x _ _ _ _ mid => ?_) (fun _ => .failed) (fun x mid far => ?_)
    (fun _ _ far => far) fun _ _ far => far
  · exact (HoldsUpTo.followers ((hb.both ha).map Prod.snd) round mid).map _
  · exact ⟨(past_followers far).map _, (past_followers far).map _⟩

theorem HoldsUpTo.either {s : DdlRule α} (ha : r.HoldsUpTo calls wall)
    (hb : s.HoldsUpTo calls wall) (stays : r.StaysAt calls wall) :
    (Rule.either r s).HoldsUpTo calls wall := fun w c c' walled => by
  rw [read_either, read_either]
  refine (ha walled).handle (fun x _ _ _ _ => .matched x) (fun f near => ?_)
    (fun _ _ far => ⟨far, far⟩) (fun f read far => ?_) fun f read far => ?_
  · rw [walled.pos]
    split
    · exact .failed near
    · refine (hb walled).handle (fun x _ _ _ _ => .matched x) (fun g near' => ?_)
        (fun _ _ far => ⟨far, far⟩) (fun g _ far => ?_) fun g _ far => ?_
      · split
        · exact .failed near'
        · exact .failed (by rw [Failure.deeper_pos]; omega)
      all_goals
        split
        · exact far
        · show w < (f.deeper g).pos
          rw [Failure.deeper_pos]
          omega
  · rw [if_pos (late_of_past stays walled read far)]
    exact far
  · rw [if_pos (late_of_past stays walled.symm read far)]
    exact far

theorem HoldsUpTo.optional (ha : r.HoldsUpTo calls wall) (stays : r.StaysAt calls wall) :
    (Rule.optional r).HoldsUpTo calls wall := fun w c c' walled => by
  rw [read_optional, read_optional]
  refine (ha walled).handle (fun x _ _ _ _ => .matched _) (fun f near => ?_)
    (fun _ _ far => ⟨far, far⟩) (fun f read far => ?_) fun f read far => ?_
  · rw [walled.pos]
    split
    · exact .failed near
    · exact .matched _ walled
  · rw [if_pos (late_of_past stays walled read far)]
    exact far
  · rw [if_pos (late_of_past stays walled.symm read far)]
    exact far

theorem HoldsUpTo.nested (ha : r.HoldsUpTo calls wall) : (Rule.nested r).HoldsUpTo calls wall :=
  fun w c c' walled => by
  have inside := ha (walled.deeper (c.depth + 1))
  rw [read_nested, read_nested, walled.depth]
  split
  · rw [walled.pos]
    exact .failed walled.le
  · exact inside.handle (fun x _ _ _ _ mid => .matched x (mid.deeper c.depth)) (fun _ => .failed)
      (fun _ _ far => ⟨far, far⟩) (fun _ _ far => far) fun _ _ far => far

theorem read_token_cons {t : Terminal} {first : Token} {rest : List Token}
    (front : c.rest = first :: rest) : (Rule.token t : DdlRule String).read calls c =
      match t.accept Keywords.mysql first with
      | some value => .matched value ⟨c.pos + 1, rest, c.depth⟩
      | none => .failed ⟨c.pos, [t.expected]⟩ := by
  have read : (Rule.token t : DdlRule String).read calls c = _ := read_token t
  rw [front] at read
  exact read

theorem holdsUpTo_token (t : Terminal) : (Rule.token t).HoldsUpTo calls wall :=
  fun w c c' walled => by
  rcases walled.cases with ⟨here, rest, rest', front, front'⟩ |
    ⟨first, rest, rest', front, front', later⟩
  · rw [read_token_cons front, read_token_cons front']
    cases t.accept Keywords.mysql wall with
    | some value =>
      exact .past (Nat.lt_succ_of_le here.ge) (Nat.lt_succ_of_le (walled.pos ▸ here.ge))
    | none =>
      rw [walled.pos]
      exact .failed walled.le
  · rw [read_token_cons front, read_token_cons front']
    cases t.accept Keywords.mysql first with
    | some value => exact .matched value later
    | none =>
      rw [walled.pos]
      exact .failed walled.le

theorem holdsUpTo_atEnd : (Rule.atEnd : DdlRule Unit).HoldsUpTo calls wall :=
  fun w c c' walled => by
  obtain ⟨inner, rest, rest', whole, whole', -⟩ := walled.agree
  have fails {c : Cursor} {inner rest : List Token} (whole : c.rest = inner ++ wall :: rest) :
      (Rule.atEnd : DdlRule Unit).read calls c = .failed ⟨c.pos, [.endOfInput]⟩ := by
    simp [read, Engine.answer, Engine.run_atEnd, Engine.atEnd, Engine.fail, whole]
  rw [fails whole, fails whole', walled.pos]
  exact .failed walled.le

/-- A value is converted from one token, which is not the wall. -/
theorem HoldsUpTo.convert {t : Terminal} (f : String → Except String α)
    (refused : t.accept Keywords.mysql wall = none) :
    (Rule.convert f (.token t)).HoldsUpTo calls wall := fun w c c' walled => by
  have fails (expected : List Expected) :
      Outcome.Walled (α := α) wall w (.failed ⟨c.pos, expected⟩) (.failed ⟨c'.pos, expected⟩) := by
    rw [walled.pos]
    exact .failed walled.le
  rw [read_convert, read_convert]
  rcases walled.cases with ⟨-, rest, rest', front, front'⟩ |
    ⟨first, rest, rest', front, front', later⟩
  · rw [read_token_cons front, read_token_cons front', refused]
    exact fails _
  · rw [read_token_cons front, read_token_cons front']
    cases t.accept Keywords.mysql first with
    | none => exact fails _
    | some value =>
      cases converted : f value with
      | ok y => simpa [converted] using .matched y later
      | error e => simpa [converted] using fails _

theorem holdsUpTo_of_calls (names : ∀ {α : Type} (name : Nonterminal α),
      (Rule.call name).HoldsUpTo calls wall ∧ (Rule.call name).StaysAt calls wall)
    (refused : ∀ t, stop t = false → t.accept Keywords.mysql wall = none)
    (shuns : r.shuns stop = true) : r.HoldsUpTo calls wall := by
  have stays {β : Type} {s : DdlRule β} (shut : (s.sides stop).opens = false) :
      s.StaysAt calls wall := staysAt_of_calls (fun name => (names name).2) refused shut
  induction r with
  | token t => exact holdsUpTo_token t
  | atEnd => exact holdsUpTo_atEnd
  | call name => exact (names name).1
  | map f r ih => exact (ih shuns).map f
  | convert f r ih =>
    simp only [Rule.shuns, Bool.and_eq_true, Bool.not_eq_true'] at shuns
    cases r with
    | token t => exact .convert f (refused t shuns.2)
    | _ => cases shuns.1
  | both a b iha ihb =>
    obtain ⟨first, second⟩ := Bool.and_eq_true_iff.1 shuns
    exact (iha first).both (ihb second)
  | either a b iha ihb =>
    simp only [Rule.shuns, Bool.and_eq_true, Bool.not_eq_true'] at shuns
    exact (iha shuns.1.1).either (ihb shuns.1.2) (stays shuns.2)
  | optional r ih =>
    simp only [Rule.shuns, Bool.and_eq_true, Bool.not_eq_true'] at shuns
    exact (ih shuns.1).optional (stays shuns.2)
  | many r ih =>
    simp only [Rule.shuns, Bool.and_eq_true, Bool.not_eq_true'] at shuns
    exact (ih shuns.1).many (stays shuns.2)
  | sepBy1 item separator ih ihs =>
    simp only [Rule.shuns, Bool.and_eq_true, Bool.not_eq_true'] at shuns
    exact (ih shuns.1.1).sepBy1 (ihs shuns.1.2) (stays (s := .both separator item) shuns.2)
  | nested r ih => exact (ih shuns).nested

theorem holdsUpTo_call (calls : Nat) (name : Nonterminal α)
    (refused : ∀ t, stop t = false → t.accept Keywords.mysql wall = none)
    (named : ∀ {α : Type} (name : Nonterminal α),
      name.rule.shuns stop = true ∧ (name.rule.sides stop).opens = false) :
    (Rule.call name).HoldsUpTo calls wall := by
  induction calls generalizing α with
  | zero => exact fun _ _ _ _ => .past trivial trivial
  | succ calls ih =>
    exact holdsUpTo_of_calls (r := name.rule)
      (fun name => ⟨ih name, staysAt_call calls name refused fun name => (named name).2⟩) refused
      (named name).1

end Rule

/-- The literal that a closing parenthesis is read as. -/
def Terminal.closes (t : Terminal) : Bool := t == .literal ")"

theorem Nonterminal.shuns_closes {α : Type} (name : Nonterminal α) :
    name.rule.shuns Terminal.closes = true ∧ (name.rule.sides Terminal.closes).opens = false := by
  cases name <;> exact ⟨by decide, by decide⟩

namespace Rule

variable {calls p depth : Nat} {r : DdlRule α} {taken rest : List Token} {x : α}

/-- What is read up to a closing parenthesis is read in front of all other tokens. -/
theorem read_closed (shuns : r.shuns Terminal.closes = true)
    (sound : ∀ t ∈ taken, t.Sound Keywords.mysql)
    (read : (r <* Grammar.literal ")").read calls ⟨p, taken ++ rest, depth⟩ =
      .matched x ⟨p + taken.length, rest, depth⟩) (rest' : List Token) :
    (r <* Grammar.literal ")").read calls ⟨p, taken ++ rest', depth⟩ =
      .matched x ⟨p + taken.length, rest', depth⟩ := by
  obtain ⟨_, mid, inside, close⟩ := seqLeft_matched_iff.1 read
  obtain ⟨wall, _, front, accepted, next⟩ := token_matched_iff.1 close
  obtain ⟨pos, rfl, deep⟩ := Cursor.mk.inj next
  obtain ⟨inner, whole, length, -⟩ := reaches_of_read inside
  obtain rfl : taken = inner ++ [wall] := by
    have whole : taken ++ rest = (inner ++ [wall]) ++ rest := by simpa [front] using whole
    exact List.append_cancel_right whole
  have operator : wall.kind = .operator ∧ wall.text = ")" :=
    Token.operator_of_spells (sound wall (by simp)) (by decide)
      (Option.ite_none_right_eq_some.1 accepted).1
  have refused (t : Terminal) (other : t.closes = false) : t.accept Keywords.mysql wall = none := by
    cases accepted : t.accept Keywords.mysql wall with
    | none => rfl
    | some value =>
      rw [Terminal.eq_of_accept_operator operator.1 accepted, operator.2] at other
      cases other
  -- The parenthesis is a wall: what shuns it reads the same up to it, whatever comes behind.
  have walled : Cursor.Walled wall mid.pos ⟨p, inner ++ [wall] ++ rest, depth⟩
      ⟨p, inner ++ [wall] ++ rest', depth⟩ :=
    ⟨rfl, rfl, inner, rest, rest', by simp, by simp, length.symm⟩
  have holds : r.HoldsUpTo calls wall := holdsUpTo_of_calls
    (fun name => ⟨holdsUpTo_call calls name refused Nonterminal.shuns_closes,
      staysAt_call calls name refused fun name => name.shuns_closes.2⟩) refused shuns
  have alike := holds walled
  rw [inside] at alike
  obtain ⟨mid', again, same⟩ := alike.exists_matched (Nat.le_refl _)
  obtain ⟨inner', whole', length', deep'⟩ := reaches_of_read again
  have place := same.pos
  simp only [List.append_assoc, List.cons_append, List.nil_append] at whole' length length' deep'
  obtain ⟨-, behind⟩ := List.append_inj whole' (by omega)
  have last : (Grammar.literal ")" : DdlRule String).read calls mid' =
      .matched _ ⟨p + (inner ++ [wall]).length, rest', depth⟩ :=
    token_matched_iff.2 ⟨wall, rest', behind.symm, accepted, by rw [pos, place, deep']⟩
  exact seqLeft_matched_iff.2 ⟨_, mid', again, last⟩

/-- The same where the parentheses come after something else. -/
theorem seq_parenthesized_closed {r : DdlRule (β → α)} {s : DdlRule β}
    (shuns : r.shuns Terminal.closes = true) (shuns' : s.shuns Terminal.closes = true)
    (sound : ∀ t ∈ taken, t.Sound Keywords.mysql)
    (read : (r <*> Grammar.parenthesized s).read calls ⟨p, taken ++ rest, depth⟩ =
      .matched x ⟨p + taken.length, rest, depth⟩) (rest' : List Token) :
    (r <*> Grammar.parenthesized s).read calls ⟨p, taken ++ rest', depth⟩ =
      .matched x ⟨p + taken.length, rest', depth⟩ := by
  obtain ⟨f, y, mid, first, second, rfl⟩ := seq_matched_iff.1 read
  obtain ⟨_, mid', inside, last⟩ := seqLeft_matched_iff.1 second
  have joined : (Rule.both r (Grammar.literal "(" *> s) <* Grammar.literal ")").read calls
      ⟨p, taken ++ rest, depth⟩ = .matched (f, y) ⟨p + taken.length, rest, depth⟩ :=
    seqLeft_matched_iff.2 ⟨_, mid', both_matched_iff.2 ⟨mid, first, inside⟩, last⟩
  have shun : (Rule.both r (Grammar.literal "(" *> s)).shuns Terminal.closes = true :=
    Bool.and_eq_true_iff.2 ⟨shuns, shuns'⟩
  obtain ⟨_, last', both, close⟩ := seqLeft_matched_iff.1 (read_closed shun sound joined rest')
  obtain ⟨mid', first', inside'⟩ := both_matched_iff.1 both
  exact seq_matched_iff.2
    ⟨f, y, mid', first', seqLeft_matched_iff.2 ⟨_, last', inside', close⟩, rfl⟩

end Rule
end TableDdl
