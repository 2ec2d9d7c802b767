import TableDdl.Proofs.Grammar.First
import TableDdl.Proofs.Grammar.Terminals

/-!
# Where matches end

The last token of a match was taken by the last part of its rule that took any. It can be read off
a rule which terminals may stand there. Main statement: if all of them are of one kind, then the
last token of every match is accepted by a terminal of that kind.
-/
namespace TableDdl

variable {N : Type → Type} {σ α β : Type}

/-- Every terminal that a match of the rule may end with is one of the given kind. -/
def Rule.endsIn {α : Type} (kind : Terminal → Bool) : Rule N α → Bool
  | .token t => kind t
  | .atEnd => true
  | .call _ => true
  | .map _ r => r.endsIn kind
  | .convert _ r => r.endsIn kind
  | .both a b => b.endsIn kind && (!b.nullable || a.endsIn kind)
  | .either a b => a.endsIn kind && b.endsIn kind
  | .optional r => r.endsIn kind
  | .many r => r.endsIn kind
  | .sepBy1 item separator => item.endsIn kind && (!item.nullable || separator.endsIn kind)
  | .nested r => r.endsIn kind

/-- The tokens between the two places are such a list. -/
def Cursor.Spans (T : List Token → Prop) (c next : Cursor) : Prop :=
  ∃ taken, c.rest = taken ++ next.rest ∧ next.pos = c.pos + taken.length ∧ T taken

/-- What a match takes is such a list. -/
def Outcome.Spans (T : List Token → Prop) (c : Cursor) (o : Outcome α) : Prop :=
  ∀ x next, o = .matched x next → c.Spans T next

namespace Outcome.Spans

variable {T T' : List Token → Prop} {c : Cursor} {o : Outcome α}

theorem matched {next : Cursor} (x : α) (h : c.Spans T next) :
    (Outcome.matched x next).Spans T c := by
  rintro _ _ ⟨⟩
  exact h

theorem nothing (x : α) (empty : T []) : (Outcome.matched x c).Spans T c :=
  .matched x ⟨[], rfl, rfl, empty⟩

theorem failed (f : Failure) : (Outcome.failed f : Outcome α).Spans T c := nofun

theorem diverged : (Outcome.diverged : Outcome α).Spans T c := nofun

/-- A match after some tokens. -/
theorem after {mid : Cursor} {taken : List Token} (ho : o.Spans T mid)
    (whole : c.rest = taken ++ mid.rest) (length : mid.pos = c.pos + taken.length)
    (more : ∀ ts, T ts → T' (taken ++ ts)) : o.Spans T' c := by
  intro x next same
  obtain ⟨ts, rest, pos, h⟩ := ho x next same
  refine ⟨taken ++ ts, by rw [whole, rest, List.append_assoc], ?_, more ts h⟩
  rw [pos, length, List.length_append, Nat.add_assoc]

theorem map (f : α → β) (h : o.Spans T c) : (o.map f).Spans T c := by
  intro y next same
  obtain ⟨x, found, -⟩ := Outcome.map_eq_matched_iff.1 same
  exact h x next found

theorem handle {k : α → Cursor → Outcome β} {r : Failure → Outcome β} (h : o.Spans T c)
    (matched : ∀ x next taken, c.rest = taken ++ next.rest → next.pos = c.pos + taken.length →
      T taken → (k x next).Spans T' c)
    (failed : ∀ f, (r f).Spans T' c) : (o.handle k r).Spans T' c := by
  cases o with
  | matched x next =>
    obtain ⟨taken, whole, length, inside⟩ := h x next rfl
    exact matched x next taken whole length inside
  | failed f => exact failed f
  | diverged => exact diverged

end Outcome.Spans

namespace Engine

/-- What a match takes is such a list, wherever the attempt starts. -/
def Spans (T : List Token → Prop) (a : Attempt Unit α) : Prop := ∀ c, (a c ()).1.Spans T c

namespace Spans

variable {T U V : List Token → Prop} {e : Engine Unit} {a : Attempt Unit α} {b : Attempt Unit β}

theorem mono (ha : Spans T a) (weaker : ∀ ts, T ts → U ts) : Spans U a := fun c x next same => by
  obtain ⟨taken, whole, length, inside⟩ := ha c x next same
  exact ⟨taken, whole, length, weaker taken inside⟩

theorem map (f : α → β) (ha : Spans T a) : Spans T (Engine.map f a) := fun c => by
  rw [fst_map]
  exact (ha c).map f

theorem convert (f : α → Except String β) (ha : Spans T a) : Spans T (e.convert f a) := fun c => by
  rw [fst_convert]
  refine (ha c).handle (fun x next taken whole length inside => ?_) .failed
  split
  · exact .matched _ ⟨taken, whole, length, inside⟩
  · exact .failed _

theorem both (ha : Spans T a) (hb : Spans U b) (append : ∀ ts us, T ts → U us → V (ts ++ us)) :
    Spans V (Engine.both a b) := fun c => by
  rw [fst_both]
  refine (ha c).handle (fun x mid taken whole length inside => ?_) .failed
  exact ((hb mid).map _).after whole length fun us h => append taken us inside h

theorem either {b : Attempt Unit α} (ha : Spans T a) (hb : Spans T b) : Spans T (e.either a b) :=
  fun c => by
  rw [fst_either]
  refine (ha c).handle (fun x next taken whole length inside => ?_) fun f => ?_
  · exact .matched x ⟨taken, whole, length, inside⟩
  · split
    · exact .failed f
    · refine (hb c).handle (fun x next taken whole length inside => ?_) fun g => .failed _
      exact .matched x ⟨taken, whole, length, inside⟩

theorem optional (ha : Spans T a) (empty : T []) : Spans T (e.optional a) := fun c => by
  rw [fst_optional]
  refine (ha c).handle (fun x next taken whole length inside => ?_) fun f => ?_
  · exact .matched _ ⟨taken, whole, length, inside⟩
  · split
    · exact .failed f
    · exact .nothing _ empty

section Rounds

variable (ha : Spans T a) (empty : U []) (append : ∀ ts us, T ts → U us → U (ts ++ us))

include ha empty append

theorem manyUpTo (bound : Nat) : Spans U (e.manyUpTo a bound) := by
  induction bound with
  | zero => exact fun _ => .diverged
  | succ bound ih =>
    intro c
    rw [fst_manyUpTo_succ]
    refine (ha c).handle (fun x next taken whole length inside => ?_) fun f => ?_
    · split
      · exact .nothing _ empty
      · exact ((ih next).map _).after whole length fun us h => append taken us inside h
    · split
      · exact .failed f
      · exact .nothing _ empty

theorem followersUpTo (bound : Nat) : Spans U (e.followersUpTo a bound) := by
  induction bound with
  | zero => exact fun _ => .diverged
  | succ bound ih =>
    intro c
    rw [fst_followersUpTo_succ]
    refine (ha c).handle (fun x next taken whole length inside => ?_) fun f => ?_
    · split
      · exact .diverged
      · exact ((ih next).map _).after whole length fun us h => append taken us inside h
    · split
      · exact .failed f
      · exact .nothing _ empty

end Rounds

theorem sepBy1 (ha : Spans T a) (hb : Spans U b) (empty : V [])
    (append : ∀ ss ts us, U ss → T ts → V us → V (ss ++ ts ++ us)) :
    Spans (fun ts => ∃ first later, T first ∧ V later ∧ ts = first ++ later) (e.sepBy1 a b) :=
  fun c => by
  rw [fst_sepBy1]
  refine (ha c).handle (fun x mid taken whole length inside => ?_) .failed
  have round : Spans (fun ts => ∃ ss us, U ss ∧ T us ∧ ts = ss ++ us)
      (Engine.map Prod.snd (Engine.both b a)) :=
    (hb.both ha fun ss us hs hu => ⟨ss, us, hs, hu, rfl⟩).map Prod.snd
  have rounds := round.followersUpTo (e := e) empty
    (by rintro _ us ⟨ss, ts, hs, ht, rfl⟩ hu; exact append ss ts us hs ht hu)
  exact ((rounds (mid.rest.length + 1) mid).map _).after whole length fun us h =>
    ⟨taken, us, inside, h, rfl⟩

theorem nested (ha : Spans T a) : Spans T (e.nested a) := fun c => by
  rw [fst_nested]
  split
  · exact .failed _
  · refine (ha { c with depth := c.depth + 1 }).handle
      (fun x next taken whole length inside => ?_) .failed
    exact .matched x ⟨taken, whole, length, inside⟩

end Spans
end Engine

/-- There is some token where there must be, and the last one has the property where it should. -/
structure EndsAs (P : Token → Prop) (solid closed : Prop) (ts : List Token) : Prop where
  some : solid → ts ≠ []
  last : closed → ∀ t ∈ ts.getLast?, P t

namespace EndsAs

variable {P : Token → Prop} {solid closed solid' closed' : Prop} {ts us : List Token}

theorem mono (h : EndsAs P solid closed ts) (some : solid' → solid) (last : closed' → closed) :
    EndsAs P solid' closed' ts :=
  ⟨fun s => h.some (some s), fun l => h.last (last l)⟩

theorem nil (open' : ¬ solid) : EndsAs P solid closed [] := ⟨fun s => absurd s open', by simp⟩

/-- The last token of two lists is that of the second one, or that of the first if the second one
is empty. -/
theorem append (h : EndsAs P solid closed ts) (h' : EndsAs P solid' closed' us) :
    EndsAs P (solid ∨ solid') (closed' ∧ (solid' ∨ closed)) (ts ++ us) where
  some s := by
    rw [ne_eq, List.append_eq_nil_iff]
    rintro ⟨none, none'⟩
    exact s.elim (fun s => h.some s none) fun s => h'.some s none'
  last := by
    rintro ⟨closed', other⟩ t ht
    rw [List.getLast?_append] at ht
    cases last : us.getLast? with
    | some u =>
      rw [last] at ht
      obtain rfl : u = t := Option.some.inj ht
      exact h'.last closed' u last
    | none =>
      rw [last] at ht
      have empty := List.getLast?_eq_none_iff.1 last
      exact h.last (other.resolve_left fun s => h'.some s empty) t ht

end EndsAs

namespace Engine

theorem endings_relation (e : Engine Unit) (grammar : ∀ {β : Type}, N β → Rule N β)
    {kind : Terminal → Bool} (named : ∀ {β : Type} (name : N β),
      (grammar name).endsIn kind = true ∧ (grammar name).nullable = false) :
    RunRelation e e grammar fun r a _ =>
      Spans (EndsAs (Token.Accepted e.keywords kind) (r.nullable = false) (r.endsIn kind = true)) a where
  token t c := by
    simp only [token, fail]
    split
    · exact .failed _
    · rename_i first rest tokens
      split
      · rename_i value accepted
        refine .matched value ⟨[first], tokens, rfl, fun _ => by simp, fun own u hu => ?_⟩
        obtain rfl : first = u := by simpa using hu
        exact ⟨t, value, own, accepted⟩
      · exact .failed _
  atEnd c := by
    simp only [atEnd, fail]
    split
    · exact .nothing _ (.nil (by simp [Rule.nullable]))
    · exact .failed _
  unanswered _ _ := .diverged
  call {_ name _ _} ha := ha.mono fun _ h => h.mono (fun _ => (named name).2) fun _ => (named name).1
  map f ha := ha.map f
  convert f ha := ha.convert f
  both ha hb := ha.both hb fun ts us h h' => (h.append h').mono Bool.and_eq_false_iff.1
    fun l => by simpa [Rule.endsIn] using l
  either ha hb := .either
    (ha.mono fun _ h => h.mono (fun s => (Bool.or_eq_false_iff.1 s).1)
      fun l => (Bool.and_eq_true_iff.1 l).1)
    (hb.mono fun _ h => h.mono (fun s => (Bool.or_eq_false_iff.1 s).2)
      fun l => (Bool.and_eq_true_iff.1 l).2)
  optional ha :=
    .optional (ha.mono fun _ h => h.mono (by simp [Rule.nullable]) id) (.nil (by simp [Rule.nullable]))
  many ha c := ha.manyUpTo (.nil (by simp [Rule.nullable]))
    (fun ts us h h' => (h.append h').mono (by simp [Rule.nullable]) fun l => ⟨l, .inr l⟩) _ c
  sepBy1 {_ _ item separator _ _ _ _} ha hb := by
    -- A later round takes a separator and an item, and ends as the item does.
    have lists : Spans _ (e.sepBy1 _ _) := ha.sepBy1 hb
      (V := EndsAs (Token.Accepted e.keywords kind) False
        ((item.sepBy1 separator).endsIn kind = true))
      (.nil id) fun ss ts us hs ht hu => ((hs.append ht).append hu).mono False.elim fun l =>
        ⟨l, .inr (by simpa [Rule.endsIn] using l)⟩
    refine lists.mono ?_
    rintro _ ⟨first, later, h, h', rfl⟩
    exact (h.append h').mono .inl fun l => ⟨l, .inr (Bool.and_eq_true_iff.1 l).1⟩
  nested ha := ha.nested

/-- A match of a rule that cannot match nothing takes a last token, and a terminal that the rule
may end with accepts it. -/
theorem endsAs_of_run {e : Engine σ} {grammar : ∀ {β : Type}, N β → Rule N β}
    {kind : Terminal → Bool} (named : ∀ {β : Type} (name : N β),
      (grammar name).endsIn kind = true ∧ (grammar name).nullable = false)
    {r : Rule N α} {calls : Nat} {c next : Cursor} {notes : σ} {x : α}
    (run : (e.run grammar calls r c notes).1 = .matched x next) :
    c.Spans (EndsAs (Token.Accepted e.keywords kind) (r.nullable = false) (r.endsIn kind = true))
      next := by
  rw [run_fst] at run
  exact (endings_relation e.silent grammar named).run calls r c x next run

end Engine
end TableDdl
