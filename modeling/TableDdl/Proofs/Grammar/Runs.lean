import TableDdl.Grammar.Engine

/-!
# Properties of all runs

A rule is built in a few ways, and the engine has one combinator for each. A relation between
attempts of two engines that every combinator keeps therefore holds of every run. This is the
only induction on rules and on the number of calls; the properties of runs are its instances.
-/
namespace TableDdl

variable {N : Type → Type} {σ τ : Type}

/-- What has to be shown of a relation between the runs of two engines: it holds of single
tokens, and every combinator keeps it. -/
structure RunRelation (e : Engine σ) (e' : Engine τ) (grammar : ∀ {β : Type}, N β → Rule N β)
    (P : ∀ {α : Type}, Rule N α → Attempt σ α → Attempt τ α → Prop) : Prop where
  token : ∀ t, P (.token t) (e.token t) (e'.token t)
  atEnd : P .atEnd e.atEnd e'.atEnd
  /-- A call beyond the number of calls is not answered. -/
  unanswered : ∀ {α : Type} (name : N α),
    P (.call name) (fun _ notes => (.diverged, notes)) (fun _ notes => (.diverged, notes))
  call : ∀ {α : Type} {name : N α} {a : Attempt σ α} {a' : Attempt τ α},
    P (grammar name) a a' → P (.call name) a a'
  map : ∀ {α β : Type} {r : Rule N α} {a : Attempt σ α} {a' : Attempt τ α} (f : α → β),
    P r a a' → P (.map f r) (Engine.map f a) (Engine.map f a')
  convert : ∀ {α β : Type} {r : Rule N α} {a : Attempt σ α} {a' : Attempt τ α}
    (f : α → Except String β), P r a a' → P (.convert f r) (e.convert f a) (e'.convert f a')
  both : ∀ {α β : Type} {r : Rule N α} {s : Rule N β} {a : Attempt σ α} {a' : Attempt τ α}
    {b : Attempt σ β} {b' : Attempt τ β},
    P r a a' → P s b b' → P (.both r s) (Engine.both a b) (Engine.both a' b')
  either : ∀ {α : Type} {r s : Rule N α} {a b : Attempt σ α} {a' b' : Attempt τ α},
    P r a a' → P s b b' → P (.either r s) (e.either a b) (e'.either a' b')
  optional : ∀ {α : Type} {r : Rule N α} {a : Attempt σ α} {a' : Attempt τ α},
    P r a a' → P (.optional r) (e.optional a) (e'.optional a')
  many : ∀ {α : Type} {r : Rule N α} {a : Attempt σ α} {a' : Attempt τ α},
    P r a a' → P (.many r) (e.many a) (e'.many a')
  sepBy1 : ∀ {α β : Type} {r : Rule N α} {s : Rule N β} {a : Attempt σ α} {a' : Attempt τ α}
    {b : Attempt σ β} {b' : Attempt τ β},
    P r a a' → P s b b' → P (.sepBy1 r s) (e.sepBy1 a b) (e'.sepBy1 a' b')
  nested : ∀ {α : Type} {r : Rule N α} {a : Attempt σ α} {a' : Attempt τ α},
    P r a a' → P (.nested r) (e.nested a) (e'.nested a')

namespace RunRelation

variable {e : Engine σ} {e' : Engine τ} {grammar : ∀ {β : Type}, N β → Rule N β}
  {P : ∀ {α : Type}, Rule N α → Attempt σ α → Attempt τ α → Prop}

theorem attempt (h : RunRelation e e' grammar P) {call : ∀ {β : Type}, N β → Attempt σ β}
    {call' : ∀ {β : Type}, N β → Attempt τ β}
    (named : ∀ {β : Type} (name : N β), P (.call name) (call name) (call' name))
    {α : Type} (r : Rule N α) : P r (e.attempt call r) (e'.attempt call' r) := by
  induction r with
  | token t => exact h.token t
  | atEnd => exact h.atEnd
  | call name => exact named name
  | map f _ ih => exact h.map f ih
  | convert f _ ih => exact h.convert f ih
  | both _ _ iha ihb => exact h.both iha ihb
  | either _ _ iha ihb => exact h.either iha ihb
  | optional _ ih => exact h.optional ih
  | many _ ih => exact h.many ih
  | sepBy1 _ _ iha ihb => exact h.sepBy1 iha ihb
  | nested _ ih => exact h.nested ih

/-- The relation holds of the runs of every rule, with any number of calls. -/
theorem run (h : RunRelation e e' grammar P) (calls : Nat) {α : Type} (r : Rule N α) :
    P r (e.run grammar calls r) (e'.run grammar calls r) := by
  induction calls generalizing α with
  | zero => exact h.attempt (fun name => h.unanswered name) r
  | succ calls ih => exact h.attempt (fun name => h.call (ih (grammar name))) r

end RunRelation

namespace Engine

variable {α β : Type} (e : Engine σ) (grammar : ∀ {β : Type}, N β → Rule N β) (calls : Nat)

theorem run_token (t : Terminal) : e.run grammar calls (.token t) = e.token t := by
  cases calls <;> rfl

theorem run_atEnd : e.run grammar calls .atEnd = e.atEnd := by
  cases calls <;> rfl

theorem run_map (f : α → β) (r : Rule N α) :
    e.run grammar calls (.map f r) = map f (e.run grammar calls r) := by
  cases calls <;> rfl

theorem run_convert (f : α → Except String β) (r : Rule N α) :
    e.run grammar calls (.convert f r) = e.convert f (e.run grammar calls r) := by
  cases calls <;> rfl

theorem run_both (r : Rule N α) (s : Rule N β) :
    e.run grammar calls (.both r s) = both (e.run grammar calls r) (e.run grammar calls s) := by
  cases calls <;> rfl

theorem run_either (r s : Rule N α) :
    e.run grammar calls (.either r s) =
      e.either (e.run grammar calls r) (e.run grammar calls s) := by
  cases calls <;> rfl

theorem run_optional (r : Rule N α) :
    e.run grammar calls (.optional r) = e.optional (e.run grammar calls r) := by
  cases calls <;> rfl

theorem run_many (r : Rule N α) :
    e.run grammar calls (.many r) = e.many (e.run grammar calls r) := by
  cases calls <;> rfl

theorem run_sepBy1 (r : Rule N α) (s : Rule N β) :
    e.run grammar calls (.sepBy1 r s) =
      e.sepBy1 (e.run grammar calls r) (e.run grammar calls s) := by
  cases calls <;> rfl

theorem run_nested (r : Rule N α) :
    e.run grammar calls (.nested r) = e.nested (e.run grammar calls r) := by
  cases calls <;> rfl

end Engine
end TableDdl
