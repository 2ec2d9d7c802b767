import TableDdl.Proofs.Grammar.Locality
import TableDdl.Proofs.Grammar.Reading
import TableDdl.Proofs.Grammar.Terminals

/-!
# Tokens that are left over

Tokens that no terminal of the rules takes may stand at the end: every rule comes to the same
outcome with them as without, and a match leaves them over. A failure for want of a token is then
one at the first of them, with the same index and the same expectation.
-/
namespace TableDdl

variable {N : Type → Type} {α β : Type}

/-- The place with some more tokens at the end. -/
def Cursor.extend (c : Cursor) (more : List Token) : Cursor := { c with rest := c.rest ++ more }

@[simp] theorem Cursor.pos_extend (c : Cursor) (more : List Token) :
    (c.extend more).pos = c.pos := rfl

@[simp] theorem Cursor.depth_extend (c : Cursor) (more : List Token) :
    (c.extend more).depth = c.depth := rfl

namespace Outcome

/-- The outcome with more tokens left over. -/
def extend (more : List Token) : Outcome α → Outcome α
  | .matched x next => .matched x (next.extend more)
  | .failed f => .failed f
  | .diverged => .diverged

variable {more : List Token} {o : Outcome α}

theorem extend_map (f : α → β) : (o.map f).extend more = (o.extend more).map f := by
  cases o <;> rfl

theorem extend_handle {k : α → Cursor → Outcome β} {r : Failure → Outcome β}
    {k' : α → Cursor → Outcome β} {r' : Failure → Outcome β}
    (matched : ∀ x next, o = .matched x next → k' x (next.extend more) = (k x next).extend more)
    (failed : ∀ f, r' f = (r f).extend more) :
    (o.extend more).handle k' r' = (o.handle k r).extend more := by
  cases o with
  | matched x next => exact matched x next rfl
  | failed f => exact failed f
  | diverged => rfl

end Outcome

namespace Engine

/-- The attempt leaves the tokens over, wherever it starts in front of them. -/
def Leaves (more : List Token) (a : Attempt Unit α) : Prop :=
  ∀ c, (a (c.extend more) ()).1 = (a c ()).1.extend more

namespace Leaves

variable {e : Engine Unit} {a : Attempt Unit α} {b : Attempt Unit β} {more : List Token}

theorem token {t : Terminal} (refused : ∀ first ∈ more.head?, t.accept e.keywords first = none) :
    Leaves more (e.token t) := by
  rintro ⟨pos, rest, depth⟩
  cases rest with
  | nil =>
    cases more with
    | nil => rfl
    | cons first more =>
      simp [Engine.token, Cursor.extend, Engine.fail, refused first rfl, Outcome.extend]
  | cons first rest =>
    simp only [Engine.token, Cursor.extend, List.cons_append, Engine.fail]
    cases t.accept e.keywords first <;> rfl

theorem map (f : α → β) (ha : Leaves more a) : Leaves more (Engine.map f a) := fun c => by
  rw [fst_map, fst_map, ha, Outcome.extend_map]

theorem convert (f : α → Except String β) (ha : Leaves more a) : Leaves more (e.convert f a) :=
  fun c => by
  rw [fst_convert, fst_convert, ha]
  refine Outcome.extend_handle (fun x next _ => ?_) fun _ => rfl
  cases f x <;> rfl

theorem both (ha : Leaves more a) (hb : Leaves more b) : Leaves more (Engine.both a b) := fun c => by
  rw [fst_both, fst_both, ha]
  refine Outcome.extend_handle (fun x mid _ => ?_) fun _ => rfl
  rw [hb, Outcome.extend_map]

theorem either {b : Attempt Unit α} (ha : Leaves more a) (hb : Leaves more b) :
    Leaves more (e.either a b) := fun c => by
  rw [fst_either, fst_either, ha, Cursor.pos_extend]
  refine Outcome.extend_handle (fun _ _ _ => rfl) fun f => ?_
  split
  · rfl
  · rw [hb]
    exact Outcome.extend_handle (fun _ _ _ => rfl) fun _ => rfl

theorem optional (ha : Leaves more a) : Leaves more (e.optional a) := fun c => by
  rw [fst_optional, fst_optional, ha, Cursor.pos_extend]
  refine Outcome.extend_handle (fun _ _ _ => rfl) fun f => ?_
  split <;> rfl

theorem many (forward : Forward a) (ha : Leaves more a) : Leaves more (e.many a) := by
  intro c
  induction length : c.rest.length using Nat.strongRecOn generalizing c with
  | ind n ih =>
    rw [fst_many forward, fst_many forward, ha, Cursor.pos_extend]
    refine Outcome.extend_handle (fun x next found => ?_) fun f => ?_
    · rw [Cursor.pos_extend]
      split
      · rfl
      · rename_i moved
        have shorter := (forward.reaches found).length_lt moved
        rw [ih _ (length ▸ shorter) next rfl, Outcome.extend_map]
    · split <;> rfl

/-- The same for what follows the first item of a list. -/
theorem followers (forward : Forward a) (ha : Leaves more a) (c : Cursor) :
    (e.followersUpTo a ((c.extend more).rest.length + 1) (c.extend more) ()).1 =
      ((e.followersUpTo a (c.rest.length + 1) c ()).1).extend more := by
  induction length : c.rest.length using Nat.strongRecOn generalizing c with
  | ind n ih =>
    rw [← length, fst_followers forward, fst_followers forward, ha, Cursor.pos_extend]
    refine Outcome.extend_handle (fun x next found => ?_) fun f => ?_
    · rw [Cursor.pos_extend]
      split
      · rfl
      · rename_i moved
        have shorter := (forward.reaches found).length_lt moved
        rw [ih _ (length ▸ shorter) next rfl, Outcome.extend_map]
    · split <;> rfl

theorem sepBy1 (forwardA : Forward a) (forwardB : Forward b) (ha : Leaves more a)
    (hb : Leaves more b) : Leaves more (e.sepBy1 a b) := fun c => by
  rw [fst_sepBy1, fst_sepBy1, ha]
  refine Outcome.extend_handle (fun x mid _ => ?_) fun _ => rfl
  rw [followers ((forwardB.both forwardA).map Prod.snd) ((hb.both ha).map Prod.snd),
    Outcome.extend_map]

theorem nested (ha : Leaves more a) : Leaves more (e.nested a) := fun c => by
  rw [fst_nested, fst_nested, Cursor.depth_extend, Cursor.pos_extend]
  split
  · rfl
  · have inside : (a ⟨c.pos, (c.extend more).rest, c.depth + 1⟩ ()).1 = _ :=
      ha ⟨c.pos, c.rest, c.depth + 1⟩
    rw [inside]
    exact Outcome.extend_handle (fun _ _ _ => rfl) fun _ => rfl

end Leaves

theorem leaves_relation (e : Engine Unit) (grammar : ∀ {β : Type}, N β → Rule N β)
    {kind : Terminal → Bool} {more : List Token}
    (refused : ∀ t, kind t = true → ∀ first ∈ more.head?, t.accept e.keywords first = none)
    (named : ∀ {β : Type} (name : N β),
      (grammar name).uses kind = true ∧ (grammar name).isLocal = true) :
    RunRelation e e grammar fun r a _ =>
      Forward a ∧ (r.uses kind = true → r.isLocal = true → Leaves more a) where
  token t := ⟨(forward_relation e grammar).token t, fun own _ => .token (refused t own)⟩
  atEnd := ⟨(forward_relation e grammar).atEnd, fun _ isLocal => by cases isLocal⟩
  unanswered _ := ⟨fun _ => trivial, fun _ _ _ => rfl⟩
  call {_ name _ _} ha := ⟨ha.1, fun _ _ => ha.2 (named name).1 (named name).2⟩
  map f ha := ⟨ha.1.map f, fun own isLocal => (ha.2 own isLocal).map f⟩
  convert f ha := ⟨ha.1.convert f, fun own isLocal =>
    (ha.2 own (Rule.isLocal_of_isToken isLocal)).convert f⟩
  both ha hb := by
    refine ⟨ha.1.both hb.1, fun own isLocal => ?_⟩
    obtain ⟨own, own'⟩ := Bool.and_eq_true_iff.1 own
    obtain ⟨isLocal, isLocal'⟩ := Bool.and_eq_true_iff.1 isLocal
    exact (ha.2 own isLocal).both (hb.2 own' isLocal')
  either ha hb := by
    refine ⟨ha.1.either hb.1, fun own isLocal => ?_⟩
    obtain ⟨own, own'⟩ := Bool.and_eq_true_iff.1 own
    obtain ⟨isLocal, isLocal'⟩ := Bool.and_eq_true_iff.1 isLocal
    exact (ha.2 own isLocal).either (hb.2 own' isLocal')
  optional ha := ⟨ha.1.optional, fun own isLocal => (ha.2 own isLocal).optional⟩
  many ha := ⟨fun c => ha.1.manyUpTo _ c, fun own isLocal => (ha.2 own isLocal).many ha.1⟩
  sepBy1 ha hb := by
    refine ⟨ha.1.sepBy1 hb.1, fun own isLocal => ?_⟩
    obtain ⟨own, own'⟩ := Bool.and_eq_true_iff.1 own
    obtain ⟨isLocal, isLocal'⟩ := Bool.and_eq_true_iff.1 isLocal
    exact (ha.2 own isLocal).sepBy1 ha.1 hb.1 (hb.2 own' isLocal')
  nested ha := ⟨ha.1.nested, fun own isLocal => (ha.2 own isLocal).nested⟩

end Engine

/-- What a rule of the language makes of a text does not depend on tokens after it that no
terminal takes. -/
theorem Rule.read_extend {kind : Terminal → Bool} {more : List Token}
    (refused : ∀ t, kind t = true → ∀ first ∈ more.head?, t.accept Keywords.mysql first = none)
    (named : ∀ {β : Type} (name : Nonterminal β), name.rule.uses kind = true) {r : DdlRule α}
    (own : r.uses kind = true) (isLocal : r.isLocal = true) (calls : Nat) (c : Cursor) :
    r.read calls (c.extend more) = (r.read calls c).extend more :=
  ((Engine.leaves_relation (Engine.standard Keywords.mysql).silent Nonterminal.rule refused
    fun name => ⟨named name, name.isLocal_rule⟩).run calls r).2 own isLocal c

end TableDdl
