import Mathlib.Logic.Relator
import TableDdl.Expression.Grammar
import TableDdl.Proofs.Grammar.Related

/-!
# Rules that carry names

The rules see a name only as the value of a token. On two token lists that differ in their names
alone, a rule has the same failures, and values that differ in the names alone. Main statement:
this is so for rules without names, and each way to build a rule keeps it.
-/
namespace TableDdl

open Relator

variable {α β γ : Type}

/-- Under `φ` the two values are the same. -/
def SameUnder (φ : α → β) (x y : α) : Prop := φ x = φ y

@[simp] theorem sameUnder_iff {φ : α → β} {x y : α} : SameUnder φ x y ↔ φ x = φ y := Iff.rfl

/-- The tokens are the same to every rule, but for names, which `f` does not tell apart. -/
structure Token.Alike (keywords : Keywords) (f : String → String) (t t' : Token) : Prop where
  others : ∀ terminal : Terminal, terminal ≠ .identifier →
    terminal.accept keywords t' = terminal.accept keywords t
  name : (Terminal.identifier.accept keywords t).map f =
    (Terminal.identifier.accept keywords t').map f

theorem optionRel_sameUnder {φ : α → β} {x y : Option α} :
    Option.Rel (SameUnder φ) x y ↔ SameUnder (Option.map φ) x y := by
  cases x <;> cases y <;> simp

theorem forall₂_sameUnder {φ : α → β} {xs ys : List α} :
    List.Forall₂ (SameUnder φ) xs ys ↔ SameUnder (List.map φ) xs ys := by
  rw [sameUnder_iff, ← List.forall₂_eq_eq_eq, List.forall₂_map_left_iff, List.forall₂_map_right_iff]
  rfl

theorem sameUnder_some {φ : α → β} {x y : α} (same : SameUnder φ x y) :
    SameUnder (Option.map φ) (some x) (some y) :=
  congrArg some same

/-- An absent list counts as an empty one. -/
theorem sameUnder_getD {φ : α → β} :
    (SameUnder (Option.map (List.map φ)) ⇒ SameUnder (List.map φ)) (·.getD []) (·.getD []) := by
  intro xs ys same
  have under (xs : Option (List α)) :
      (xs.getD []).map φ = (xs.map (List.map φ)).getD [] := by
    cases xs <;> rfl
  rw [SameUnder, under, under, same]

/-- With its names replaced, the value becomes the other one. -/
def Becomes (φ : α → α) (x z : α) : Prop := φ x = z

/-- What `g` makes of a part becomes what `h` makes of the part with its names replaced. -/
def Through (φ : α → α) (D : β → β → Prop) (g h : α → β) : Prop :=
  ∀ x, D (g x) (h (φ x))

/-- Both values become the same. -/
def Shared (D : α → α → Prop) (x y : α) : Prop := ∃ z, D x z ∧ D y z

@[simp] theorem becomes_iff {φ : α → α} {x z : α} : Becomes φ x z ↔ φ x = z := Iff.rfl

@[simp] theorem through_iff {φ : α → α} {D : β → β → Prop} {g h : α → β} :
    Through φ D g h ↔ ∀ x, D (g x) (h (φ x)) := Iff.rfl

namespace Shared

/-- Two functions that become the same, applied to two parts that do. -/
theorem apply {φ : α → α} {D : β → β → Prop} {g g' : α → β} {x x' : α}
    (h : Shared (Through φ D) g g') (same : SameUnder φ x x') : Shared D (g x) (g' x') := by
  obtain ⟨k, here, there⟩ := h
  have there' := there x'
  rw [← sameUnder_iff.1 same] at there'
  exact ⟨k (φ x), here x, there'⟩

theorem sameUnder {φ : α → α} {x y : α} (h : Shared (Becomes φ) x y) : SameUnder φ x y := by
  obtain ⟨z, here, there⟩ := h
  exact Eq.trans here (Eq.symm there)

end Shared

namespace Rule

/-- The rule asks for no name, and calls no other rule. -/
def nameless {N : Type → Type} {α : Type} : Rule N α → Bool
  | .token t => t != .identifier
  | .atEnd => true
  | .call _ => false
  | .map _ r => r.nameless
  | .convert _ r => r.nameless
  | .both a b => a.nameless && b.nameless
  | .either a b => a.nameless && b.nameless
  | .optional r => r.nameless
  | .many r => r.nameless
  | .sepBy1 item separator => item.nameless && separator.nameless
  | .nested r => r.nameless

/-- On alike tokens, the rule has values that `S` relates, or fails in the same way. -/
def Carries (keywords : Keywords) (f : String → String) (calls : Nat) (S : α → α → Prop)
    (r : DdlRule α) : Prop :=
  Engine.RelatedAttempt (Token.Alike keywords f) S
    ((Engine.standard keywords).run Nonterminal.rule calls r)
    (((Engine.standard keywords).under keywords).run Nonterminal.rule calls r)

namespace Carries

variable {keywords : Keywords} {f : String → String} {calls : Nat} {S S' : α → α → Prop}
  {T : β → β → Prop} {r s : DdlRule α} {q : DdlRule β}

theorem mono (h : r.Carries keywords f calls S) (weaker : ∀ x x', S x x' → S' x x') :
    r.Carries keywords f calls S' :=
  Engine.RelatedAttempt.mono h weaker

theorem nameless_relation (keywords : Keywords) (f : String → String) :
    RunRelation (Engine.standard keywords) ((Engine.standard keywords).under keywords)
      Nonterminal.rule fun r a a' =>
        r.nameless = true → Engine.RelatedAttempt (Token.Alike keywords f) Eq a a' where
  token t none := .token_same fun _ _ alike => alike.others t (by simpa [nameless] using none)
  atEnd _ := .atEnd
  unanswered _ := nofun
  call _ := nofun
  map f ha none := (ha none).map_same f
  convert f ha none := (ha none).convert f
  both ha hb none :=
    let ⟨left, right⟩ := Bool.and_eq_true_iff.1 none
    (ha left).both_same (hb right)
  either ha hb none :=
    let ⟨left, right⟩ := Bool.and_eq_true_iff.1 none
    (ha left).either (hb right)
  optional ha none := (ha none).optional_same
  many ha none := (ha none).many_same
  sepBy1 ha hb none :=
    let ⟨left, right⟩ := Bool.and_eq_true_iff.1 none
    (ha left).sepBy1_same (hb right)
  nested ha none := (ha none).nested

theorem of_nameless (none : r.nameless = true) : r.Carries keywords f calls Eq :=
  (nameless_relation keywords f).run calls r none

theorem fixed {φ : α → β} (none : r.nameless = true) : r.Carries keywords f calls (SameUnder φ) :=
  (of_nameless none).mono fun _ _ same => congrArg φ same

theorem identifier : Grammar.identifier.Carries keywords f calls (SameUnder f) := by
  rw [Carries, Grammar.identifier, Engine.run_token, Engine.run_token]
  exact .token fun u u' alike => optionRel_sameUnder.2 alike.name

theorem unanswered {name : Nonterminal α} : Carries keywords f 0 S (.call name) :=
  Engine.RelatedAttempt.unanswered

theorem call {name : Nonterminal α} (h : name.rule.Carries keywords f calls S) :
    Carries keywords f (calls + 1) S (.call name) := h

theorem map {g : α → β} (h : r.Carries keywords f calls S) (values : (S ⇒ T) g g) :
    Carries keywords f calls T (g <$> r) := by
  have run (e : Engine (Option Failure)) := Engine.run_map e Nonterminal.rule calls g r
  rw [Carries, show g <$> r = .map g r from rfl, run, run]
  exact Engine.RelatedAttempt.map values h

theorem as {value : β} (h : r.Carries keywords f calls S) (same : T value value) :
    (r.as value).Carries keywords f calls T :=
  h.map fun _ _ _ => same

theorem both (h : r.Carries keywords f calls S) (h' : q.Carries keywords f calls T) :
    Carries keywords f calls (fun p p' => S p.1 p'.1 ∧ T p.2 p'.2) (.both r q) := by
  rw [Carries, Engine.run_both, Engine.run_both]
  exact Engine.RelatedAttempt.both h h'

theorem seq {g : DdlRule (α → β)} (hg : g.Carries keywords f calls (S ⇒ T))
    (h : r.Carries keywords f calls S) : Carries keywords f calls T (g <*> r) :=
  (hg.both h).map fun _ _ values => values.1 values.2

theorem seqLeft (h : r.Carries keywords f calls S) (h' : q.Carries keywords f calls T) :
    Carries keywords f calls S (r <* q) :=
  (h.both h').map fun _ _ values => values.1

theorem seqRight (h : r.Carries keywords f calls S) (h' : q.Carries keywords f calls T) :
    Carries keywords f calls T (r *> q) :=
  (h.both h').map fun _ _ values => values.2

theorem orElse (h : r.Carries keywords f calls S) (h' : s.Carries keywords f calls S) :
    Carries keywords f calls S (r <|> s) := by
  rw [Carries, show (r <|> s) = .either r s from rfl, Engine.run_either, Engine.run_either]
  exact Engine.RelatedAttempt.either h h'

theorem oneOf {rs : List (DdlRule α)} (h : r.Carries keywords f calls S)
    (others : ∀ s ∈ rs, s.Carries keywords f calls S) :
    Carries keywords f calls S (.oneOf r rs) := by
  induction rs generalizing r with
  | nil => exact h
  | cons s rs ih =>
    obtain ⟨next, rest⟩ := List.forall_mem_cons.1 others
    exact h.orElse (ih next rest)

theorem nested (h : r.Carries keywords f calls S) : r.nested.Carries keywords f calls S := by
  rw [Carries, Engine.run_nested, Engine.run_nested]
  exact Engine.RelatedAttempt.nested h

-- A value is put together from parts one by one: the first part, more parts, and the last one.
-- What is left to show is that names are replaced part by part.
section Parts

variable {φ : α → α} {ψ : β → β} {D : β → β → Prop}

theorem first {g : α → β} (h : r.Carries keywords f calls (SameUnder φ))
    (natural : Through φ D g g) : Carries keywords f calls (Shared D) (g <$> r) :=
  h.map fun _ _ same => Shared.apply ⟨g, natural, natural⟩ same

theorem next {g : DdlRule (α → β)} (hg : g.Carries keywords f calls (Shared (Through φ D)))
    (h : r.Carries keywords f calls (SameUnder φ)) : Carries keywords f calls (Shared D) (g <*> r) :=
  (hg.both h).map fun _ _ values => values.1.apply values.2

theorem last {g : DdlRule (α → β)}
    (hg : g.Carries keywords f calls (Shared (Through φ (Becomes ψ))))
    (h : r.Carries keywords f calls (SameUnder φ)) :
    Carries keywords f calls (SameUnder ψ) (g <*> r) :=
  (hg.next h).mono fun _ _ => Shared.sameUnder

/-- A value with one part. -/
theorem only {g : α → β} (h : r.Carries keywords f calls (SameUnder φ))
    (natural : ∀ x, ψ (g x) = g (φ x)) : Carries keywords f calls (SameUnder ψ) (g <$> r) :=
  (h.first (D := Becomes ψ) natural).mono fun _ _ => Shared.sameUnder

/-- A part without names. -/
theorem kept (none : r.nameless = true) : r.Carries keywords f calls (SameUnder id) := fixed none

end Parts

variable {φ : α → γ}

theorem optional (h : r.Carries keywords f calls (SameUnder φ)) :
    r.optional.Carries keywords f calls (SameUnder (Option.map φ)) := by
  rw [Carries, Engine.run_optional, Engine.run_optional]
  exact Engine.RelatedAttempt.optional h |>.mono fun _ _ => optionRel_sameUnder.1

theorem many (h : r.Carries keywords f calls (SameUnder φ)) :
    r.many.Carries keywords f calls (SameUnder (List.map φ)) := by
  rw [Carries, Engine.run_many, Engine.run_many]
  exact Engine.RelatedAttempt.many h |>.mono fun _ _ => forall₂_sameUnder.1

theorem sepBy1 (h : r.Carries keywords f calls (SameUnder φ))
    (h' : q.Carries keywords f calls T) :
    (r.sepBy1 q).Carries keywords f calls (SameUnder (List.map φ)) := by
  rw [Carries, Engine.run_sepBy1, Engine.run_sepBy1]
  exact Engine.RelatedAttempt.sepBy1 h h' |>.mono fun _ _ => forall₂_sameUnder.1

theorem parenthesized (h : r.Carries keywords f calls S) :
    (Grammar.parenthesized r).Carries keywords f calls S :=
  ((of_nameless rfl).seqRight h).seqLeft (of_nameless rfl)

theorem commaList (h : r.Carries keywords f calls (SameUnder φ)) :
    (Grammar.commaList r).Carries keywords f calls (SameUnder (List.map φ)) :=
  h.sepBy1 (of_nameless rfl)

theorem commaList0 (h : r.Carries keywords f calls (SameUnder φ)) :
    (Grammar.commaList0 r).Carries keywords f calls (SameUnder (List.map φ)) :=
  h.commaList.optional.map sameUnder_getD

/-- The value of a setting, whose key has no names. -/
theorem setting {key : DdlRule β} (none : key.nameless = true) (h : r.Carries keywords f calls S) :
    (Grammar.setting key r).Carries keywords f calls S :=
  ((of_nameless none).seqLeft (of_nameless rfl)).seqRight h

end Carries
end Rule
end TableDdl
