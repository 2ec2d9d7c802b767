import TableDdl.Proofs.Grammar.Progress

/-!
# Commitment only prunes

An engine that commits is compared with the engine that goes back from every failure. A failure
that is final for an inner choice lies even further past the start of every outer one, so nothing
makes up for it. A run that does not end in such a failure has therefore met none, and it is step
by step the run of the other engine.
-/
namespace TableDdl

variable {N : Type → Type} {σ α β : Type}

namespace Engine

/-- The engine with another bound on the failures that are made up for. -/
def looking (e : Engine σ) (lookahead : Option Nat) : Engine σ := { e with lookahead := lookahead }

end Engine

namespace Outcome

/-- The outcome is the other one, unless it is a failure more than `k` tokens past `start`. -/
def Prunes (start k : Nat) (o o' : Outcome α) : Prop :=
  o = o' ∨ ∃ f, o = .failed f ∧ start + k < f.pos

namespace Prunes

variable {start k : Nat} {o o' : Outcome α}

/-- What is final is final for every earlier start. -/
theorem of_le {start' : Nat} (h : o.Prunes start' k o') (le : start ≤ start') :
    o.Prunes start k o' := by
  rcases h with rfl | ⟨f, rfl, far⟩
  · exact .inl rfl
  · exact .inr ⟨f, rfl, by omega⟩

theorem map (f : α → β) (h : o.Prunes start k o') : (o.map f).Prunes start k (o'.map f) := by
  rcases h with rfl | ⟨g, rfl, far⟩
  · exact .inl rfl
  · exact .inr ⟨g, rfl, far⟩

/-- What follows a match has to prune; an early failure has to be treated alike, and a late one
has to be passed on. -/
theorem handle {m m' : α → Cursor → Outcome β} {r r' : Failure → Outcome β}
    (h : o.Prunes start k o') (matched : ∀ x next, o' = .matched x next →
      (m x next).Prunes start k (m' x next))
    (early : ∀ f, ¬ start + k < f.pos → (r f).Prunes start k (r' f))
    (late : ∀ f, start + k < f.pos → r f = .failed f) :
    (o.handle m r).Prunes start k (o'.handle m' r') := by
  rcases h with rfl | ⟨f, rfl, far⟩
  · cases o with
    | matched x next => exact matched x next rfl
    | failed f =>
      by_cases far : start + k < f.pos
      · exact .inr ⟨f, late f far, far⟩
      · exact early f far
    | diverged => exact .inl rfl
  · exact .inr ⟨f, late f far, far⟩

end Prunes
end Outcome

namespace Engine

variable {e : Engine Unit} {k : Nat}

@[simp] theorem maxDepth_looking {lookahead : Option Nat} :
    (e.looking lookahead).maxDepth = e.maxDepth := rfl

@[simp] theorem commits_looking_some {start : Nat} {f : Failure} :
    (e.looking (some k)).commits start f = true ↔ start + k < f.pos := by
  simp [commits, looking]

@[simp] theorem commits_looking_none {start : Nat} {f : Failure} :
    (e.looking none).commits start f = false := rfl

/-- The second attempt never goes back, and the first one prunes it from every start. -/
structure Prunes (k : Nat) (a a' : Attempt Unit α) : Prop where
  forward : Forward a'
  outcome : ∀ c, (a c ()).1.Prunes c.pos k (a' c ()).1

namespace Prunes

variable {a a' : Attempt Unit α} {b b' : Attempt Unit β}

theorem le_of_matched (h : Prunes k a a') {c next : Cursor} {x : α}
    (found : (a' c ()).1 = .matched x next) : c.pos ≤ next.pos :=
  (h.forward.reaches found).le

theorem map (f : α → β) (ha : Prunes k a a') : Prunes k (Engine.map f a) (Engine.map f a') where
  forward := ha.forward.map f
  outcome c := by
    simp only [fst_map]
    exact (ha.outcome c).map f

theorem both (ha : Prunes k a a') (hb : Prunes k b b') :
    Prunes k (Engine.both a b) (Engine.both a' b') where
  forward := ha.forward.both hb.forward
  outcome c := by
    simp only [fst_both]
    exact (ha.outcome c).handle
      (fun x mid found => ((hb.outcome mid).map _).of_le (ha.le_of_matched found))
      (fun _ _ => .inl rfl) fun _ _ => rfl

theorem either {b b' : Attempt Unit α} (ha : Prunes k a a') (hb : Prunes k b b') :
    Prunes k ((e.looking (some k)).either a b) ((e.looking none).either a' b') where
  forward := ha.forward.either hb.forward
  outcome c := by
    simp only [fst_either, commits_looking_some, commits_looking_none]
    refine (ha.outcome c).handle (fun _ _ _ => .inl rfl) (fun f near => ?_) fun f far => by simp [far]
    simp only [near, if_false]
    refine (hb.outcome c).handle (fun _ _ _ => .inl rfl) (fun g near => ?_) fun g far => by simp [far]
    exact .inl (by simp [near])

theorem optional (ha : Prunes k a a') :
    Prunes k ((e.looking (some k)).optional a) ((e.looking none).optional a') where
  forward := ha.forward.optional
  outcome c := by
    simp only [fst_optional, commits_looking_some, commits_looking_none]
    exact (ha.outcome c).handle (fun _ _ _ => .inl rfl) (fun f near => .inl (by simp [near]))
      fun f far => by simp [far]

theorem manyUpTo (ha : Prunes k a a') (bound : Nat) :
    Prunes k ((e.looking (some k)).manyUpTo a bound) ((e.looking none).manyUpTo a' bound) where
  forward := ha.forward.manyUpTo bound
  outcome := by
    induction bound with
    | zero => exact fun _ => .inl rfl
    | succ bound ih =>
      intro c
      simp only [fst_manyUpTo_succ, commits_looking_some, commits_looking_none]
      refine (ha.outcome c).handle (fun x next found => ?_)
        (fun f near => .inl (by simp [near])) fun f far => by simp [far]
      split
      · exact .inl rfl
      · exact ((ih next).map _).of_le (ha.le_of_matched found)

theorem followersUpTo (ha : Prunes k a a') (bound : Nat) :
    Prunes k ((e.looking (some k)).followersUpTo a bound)
      ((e.looking none).followersUpTo a' bound) where
  forward := ha.forward.followersUpTo bound
  outcome := by
    induction bound with
    | zero => exact fun _ => .inl rfl
    | succ bound ih =>
      intro c
      simp only [fst_followersUpTo_succ, commits_looking_some, commits_looking_none]
      refine (ha.outcome c).handle (fun x next found => ?_)
        (fun f near => .inl (by simp [near])) fun f far => by simp [far]
      split
      · exact .inl rfl
      · exact ((ih next).map _).of_le (ha.le_of_matched found)

theorem sepBy1 (ha : Prunes k a a') (hb : Prunes k b b') :
    Prunes k ((e.looking (some k)).sepBy1 a b) ((e.looking none).sepBy1 a' b') where
  forward := ha.forward.sepBy1 hb.forward
  outcome c := by
    simp only [fst_sepBy1]
    refine (ha.outcome c).handle (fun x mid found => ?_) (fun _ _ => .inl rfl) fun _ _ => rfl
    have followers := ((hb.both ha).map Prod.snd).followersUpTo (e := e) (mid.rest.length + 1)
    exact ((followers.outcome mid).map _).of_le (ha.le_of_matched found)

end Prunes

theorem prunes_relation (e : Engine Unit) (k : Nat) (grammar : ∀ {β : Type}, N β → Rule N β) :
    RunRelation (e.looking (some k)) (e.looking none) grammar fun _ a a' => Prunes k a a' where
  token t := ⟨(forward_relation _ grammar).token t, fun _ => .inl rfl⟩
  atEnd := ⟨(forward_relation _ grammar).atEnd, fun _ => .inl rfl⟩
  unanswered _ := ⟨fun _ => trivial, fun _ => .inl rfl⟩
  call h := h
  map f h := h.map f
  convert f h := by
    refine ⟨h.forward.convert f, fun c => ?_⟩
    simp only [fst_convert]
    exact (h.outcome c).handle (fun _ _ _ => .inl rfl) (fun _ _ => .inl rfl) fun _ _ => rfl
  both ha hb := ha.both hb
  either ha hb := ha.either hb
  optional h := h.optional
  many h := ⟨fun c => h.forward.manyUpTo _ c, fun c => (h.manyUpTo _).outcome c⟩
  sepBy1 ha hb := ha.sepBy1 hb
  nested h := by
    refine ⟨h.forward.nested, fun c => ?_⟩
    simp only [fst_nested, maxDepth_looking]
    by_cases tooDeep : e.maxDepth ≤ c.depth
    · simp only [tooDeep, if_true]
      exact .inl rfl
    · simp only [tooDeep, if_false]
      exact (h.outcome { c with depth := c.depth + 1 }).handle (fun _ _ _ => .inl rfl)
        (fun _ _ => .inl rfl) fun _ _ => rfl

theorem answer_prunes (e : Engine σ) (k : Nat) (grammar : ∀ {β : Type}, N β → Rule N β)
    (calls : Nat) (r : Rule N α) (c : Cursor) :
    ((e.looking (some k)).answer grammar calls r c).Prunes c.pos k
      ((e.looking none).answer grammar calls r c) :=
  ((prunes_relation e.silent k grammar).run calls r).outcome c

/-- A match, and a failure at most `k` tokens past the start, are found by the engine that goes
back from every failure as well, with the same value, the same end and the same failure. -/
theorem run_looking_none (e : Engine σ) (k : Nat) (grammar : ∀ {β : Type}, N β → Rule N β)
    (calls : Nat) (r : Rule N α) (c : Cursor) (notes notes' : σ) :
    (∀ value next, ((e.looking (some k)).run grammar calls r c notes).1 = .matched value next →
      ((e.looking none).run grammar calls r c notes').1 = .matched value next) ∧
    (∀ f, ((e.looking (some k)).run grammar calls r c notes).1 = .failed f → f.pos ≤ c.pos + k →
      ((e.looking none).run grammar calls r c notes').1 = .failed f) := by
  simp only [run_fst]
  rcases e.answer_prunes k grammar calls r c with same | ⟨f, failed, far⟩
  · exact ⟨fun value next h => same ▸ h, fun f h _ => same ▸ h⟩
  · rw [failed]
    refine ⟨fun value next h => by simp at h, fun g h near => ?_⟩
    obtain rfl : f = g := by simpa using h
    omega

/-- A choice in a repetition is matched through its second alternative, and a pair fails early at
the token after its bracket. -/
theorem run_looking_none_pair :
    let reference := (standard Keywords.mysql).looking none
    let names : ∀ {β : Type}, (fun _ => Empty) β → Rule (fun _ => Empty) β := fun name => nomatch name
    let operator (text : String) : Token := ⟨.operator, text, .start⟩
    let pair := Rule.both (Grammar.literal "(") (.either (Grammar.literal "(") (Grammar.literal ")"))
    (reference.run names 0 (.many pair)
        (.start [operator "(", operator ")", operator "("]) none).1
        = .matched [("(", ")")] ⟨2, [operator "("], 0⟩ ∧
      (reference.run names 0 pair (.start [operator "(", operator ","]) none).1
        = .failed ⟨1, [.literal "(", .literal ")"]⟩ := by
  intro reference names operator pair
  refine ⟨(run_looking_none (standard Keywords.mysql) 1 names 0 _ _ none none).1 _ _ ?_,
    (run_looking_none (standard Keywords.mysql) 1 names 0 _ _ none none).2 _ ?_ ?_⟩
  · rfl
  · rfl
  · decide

end Engine
end TableDdl
