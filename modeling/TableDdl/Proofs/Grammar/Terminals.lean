import TableDdl.Proofs.Grammar.Progress

/-!
# Terminals of a rule

A match only takes tokens that some terminal of the rules accepts. What holds of every token that
one of these terminals accepts therefore holds of all tokens of a text that was read.
-/
namespace TableDdl

variable {N : Type → Type} {σ α β : Type}

/-- Every terminal of the rule is one of the given kind. -/
def Rule.uses {α : Type} (kind : Terminal → Bool) : Rule N α → Bool
  | .token t => kind t
  | .atEnd => true
  | .call _ => true
  | .map _ r => r.uses kind
  | .convert _ r => r.uses kind
  | .both a b => a.uses kind && b.uses kind
  | .either a b => a.uses kind && b.uses kind
  | .optional r => r.uses kind
  | .many r => r.uses kind
  | .sepBy1 item separator => item.uses kind && separator.uses kind
  | .nested r => r.uses kind

/-- All terminals are of some kind. -/
theorem Rule.uses_true {α : Type} (r : Rule N α) : r.uses (fun _ => true) = true := by
  induction r <;> simp_all [uses]

/-- Some terminal of the kind accepts the token. -/
def Token.Accepted (keywords : Keywords) (kind : Terminal → Bool) (t : Token) : Prop :=
  ∃ terminal x, kind terminal = true ∧ terminal.accept keywords t = some x

/-- Between the two places there are only tokens with the property. -/
def Cursor.Passes (P : Token → Prop) (c next : Cursor) : Prop :=
  ∃ taken, c.rest = taken ++ next.rest ∧ ∀ t ∈ taken, P t

namespace Cursor.Passes

variable {P : Token → Prop}

theorem refl (c : Cursor) : c.Passes P c := ⟨[], rfl, by simp⟩

theorem trans {a b c : Cursor} (hab : a.Passes P b) (hbc : b.Passes P c) : a.Passes P c := by
  obtain ⟨s, hs, allS⟩ := hab
  obtain ⟨t, ht, allT⟩ := hbc
  refine ⟨s ++ t, by rw [hs, ht, List.append_assoc], fun u hu => ?_⟩
  rcases List.mem_append.1 hu with hu | hu
  · exact allS u hu
  · exact allT u hu

end Cursor.Passes

/-- A match passes only tokens with the property. -/
def Outcome.Passes (P : Token → Prop) (c : Cursor) (o : Outcome α) : Prop :=
  ∀ x next, o = .matched x next → c.Passes P next

namespace Outcome.Passes

variable {P : Token → Prop} {c : Cursor} {o : Outcome α}

theorem matched {next : Cursor} (x : α) (h : c.Passes P next) :
    (Outcome.matched x next).Passes P c := by
  rintro _ _ ⟨⟩
  exact h

theorem failed (f : Failure) : (Outcome.failed f : Outcome α).Passes P c := nofun

theorem diverged : (Outcome.diverged : Outcome α).Passes P c := nofun

theorem of_passes {mid : Cursor} (h : c.Passes P mid) (ho : o.Passes P mid) : o.Passes P c :=
  fun x next same => h.trans (ho x next same)

theorem map (f : α → β) (h : o.Passes P c) : (o.map f).Passes P c := by
  rintro y next same
  obtain ⟨x, found, -⟩ := Outcome.map_eq_matched_iff.1 same
  exact h x next found

theorem handle {k : α → Cursor → Outcome β} {r : Failure → Outcome β} (h : o.Passes P c)
    (matched : ∀ x next, c.Passes P next → (k x next).Passes P c)
    (failed : ∀ f, (r f).Passes P c) : (o.handle k r).Passes P c := by
  cases o with
  | matched x next => exact matched x next (h x next rfl)
  | failed f => exact failed f
  | diverged => exact diverged

end Outcome.Passes

namespace Engine

/-- A match passes only tokens with the property, wherever the attempt starts. -/
def Passes (P : Token → Prop) (a : Attempt Unit α) : Prop := ∀ c, (a c ()).1.Passes P c

namespace Passes

variable {P : Token → Prop} {e : Engine Unit} {a : Attempt Unit α} {b : Attempt Unit β}

theorem map (f : α → β) (ha : Passes P a) : Passes P (Engine.map f a) := fun c => by
  rw [fst_map]
  exact (ha c).map f

theorem convert (f : α → Except String β) (ha : Passes P a) : Passes P (e.convert f a) := fun c => by
  rw [fst_convert]
  refine (ha c).handle (fun x next h => ?_) .failed
  split
  · exact .matched _ h
  · exact .failed _

theorem both (ha : Passes P a) (hb : Passes P b) : Passes P (Engine.both a b) := fun c => by
  rw [fst_both]
  exact (ha c).handle (fun x mid h => .of_passes h ((hb mid).map _)) .failed

theorem either {b : Attempt Unit α} (ha : Passes P a) (hb : Passes P b) :
    Passes P (e.either a b) := fun c => by
  rw [fst_either]
  refine (ha c).handle (fun _ _ => .matched _) fun f => ?_
  split
  · exact .failed f
  · exact (hb c).handle (fun _ _ => .matched _) fun g => .failed _

theorem optional (ha : Passes P a) : Passes P (e.optional a) := fun c => by
  rw [fst_optional]
  refine (ha c).handle (fun _ _ => .matched _) fun f => ?_
  split
  · exact .failed f
  · exact .matched _ (.refl c)

theorem manyUpTo (ha : Passes P a) (bound : Nat) : Passes P (e.manyUpTo a bound) := by
  induction bound with
  | zero => exact fun _ => .diverged
  | succ bound ih =>
    intro c
    rw [fst_manyUpTo_succ]
    refine (ha c).handle (fun x next h => ?_) fun f => ?_
    · split
      · exact .matched _ (.refl c)
      · exact .of_passes h ((ih next).map _)
    · split
      · exact .failed f
      · exact .matched _ (.refl c)

theorem followersUpTo (ha : Passes P a) (bound : Nat) : Passes P (e.followersUpTo a bound) := by
  induction bound with
  | zero => exact fun _ => .diverged
  | succ bound ih =>
    intro c
    rw [fst_followersUpTo_succ]
    refine (ha c).handle (fun x next h => ?_) fun f => ?_
    · split
      · exact .diverged
      · exact .of_passes h ((ih next).map _)
    · split
      · exact .failed f
      · exact .matched _ (.refl c)

theorem sepBy1 (ha : Passes P a) (hb : Passes P b) : Passes P (e.sepBy1 a b) := fun c => by
  rw [fst_sepBy1]
  exact (ha c).handle
    (fun x mid h => .of_passes h ((((hb.both ha).map Prod.snd).followersUpTo _ mid).map _)) .failed

theorem nested (ha : Passes P a) : Passes P (e.nested a) := fun c => by
  rw [fst_nested]
  split
  · exact .failed _
  · exact (ha { c with depth := c.depth + 1 }).handle (fun x next h => .matched x h) .failed

end Passes

theorem passes_relation (e : Engine Unit) (grammar : ∀ {β : Type}, N β → Rule N β)
    {kind : Terminal → Bool} (named : ∀ {β : Type} (name : N β), (grammar name).uses kind = true) :
    RunRelation e e grammar fun r a _ =>
      r.uses kind = true → Passes (Token.Accepted e.keywords kind) a where
  token t own c := by
    simp only [token, fail]
    split
    · exact .failed _
    · rename_i first rest tokens
      split
      · rename_i value accepted
        exact .matched value ⟨[first], tokens, by simpa using ⟨t, value, own, accepted⟩⟩
      · exact .failed _
  atEnd _ c := by
    simp only [atEnd, fail]
    split
    · exact .matched _ (.refl c)
    · exact .failed _
  unanswered _ _ _ := .diverged
  call {_ name _ _} ha _ := ha (named name)
  map f ha own := (ha own).map f
  convert f ha own := (ha own).convert f
  both ha hb own := by
    obtain ⟨first, second⟩ := Bool.and_eq_true_iff.1 own
    exact (ha first).both (hb second)
  either ha hb own := by
    obtain ⟨first, second⟩ := Bool.and_eq_true_iff.1 own
    exact (ha first).either (hb second)
  optional ha own := (ha own).optional
  many ha own c := (ha own).manyUpTo _ c
  sepBy1 ha hb own := by
    obtain ⟨first, second⟩ := Bool.and_eq_true_iff.1 own
    exact (ha first).sepBy1 (hb second)
  nested ha own := (ha own).nested

/-- Every token of a match is accepted by some terminal of the rules. -/
theorem accepted_of_run {e : Engine σ} (grammar : ∀ {β : Type}, N β → Rule N β)
    {kind : Terminal → Bool} (named : ∀ {β : Type} (name : N β), (grammar name).uses kind = true)
    {r : Rule N α} (own : r.uses kind = true) {calls : Nat} {c next : Cursor} {notes : σ} {x : α}
    (run : (e.run grammar calls r c notes).1 = .matched x next) :
    c.Passes (Token.Accepted e.keywords kind) next := by
  rw [run_fst] at run
  exact (passes_relation e.silent grammar named).run calls r own c x next run

end Engine
end TableDdl
