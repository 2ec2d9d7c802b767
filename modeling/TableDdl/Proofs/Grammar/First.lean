import TableDdl.Proofs.Grammar.Reading

/-!
# First terminals

The terminals that a rule asks about first. Where none of them takes the next token, the rule
fails there at once, or matches without taking a token if it can match nothing. Rules that start
with a name, a nesting level or the end of the text have no such list.
-/
namespace TableDdl

variable {N : Type → Type} {α β : Type}

namespace Rule

/-- Whether the rule may match without taking a token. -/
def nullable {α : Type} : Rule N α → Bool
  | .token _ => false
  | .atEnd => true
  | .call _ => false
  | .map _ r => r.nullable
  | .convert _ r => r.nullable
  | .both a b => a.nullable && b.nullable
  | .either a b => a.nullable || b.nullable
  | .optional _ => true
  | .many _ => true
  | .sepBy1 item _ => item.nullable
  | .nested r => r.nullable

def first {α : Type} : Rule N α → Option (List Terminal)
  | .token t => some [t]
  | .atEnd => none
  | .call _ => none
  | .map _ r => r.first
  | .convert _ r => if r.nullable then none else r.first
  | .both a b =>
    if a.nullable then a.first.bind fun ts => b.first.map (ts ++ ·) else a.first
  | .either a b => a.first.bind fun ts => b.first.map (ts ++ ·)
  | .optional r => r.first
  | .many r => r.first
  | .sepBy1 item _ => if item.nullable then none else item.first
  | .nested _ => none

/-- The terminals that the rule may start with, as far as they are known. -/
def starts {α : Type} (r : Rule N α) : List Terminal := r.first.getD []

/-- The rule takes a token, and it is known which terminals it may start with. -/
structure Starts {α : Type} (r : Rule N α) : Prop where
  known : r.first.isSome = true
  solid : r.nullable = false

instance {α : Type} (r : Rule N α) : Decidable r.Starts :=
  decidable_of_iff (r.first.isSome = true ∧ r.nullable = false)
    ⟨fun h => ⟨h.1, h.2⟩, fun h => ⟨h.known, h.solid⟩⟩

theorem Starts.first_eq {α : Type} {r : Rule N α} (h : r.Starts) : r.first = some r.starts := by
  obtain ⟨ts, known⟩ := Option.isSome_iff_exists.1 h.known
  rw [starts, known]
  rfl

end Rule

/-- None of the terminals takes the token that comes next, if one does. -/
def Avoids (ts : List Terminal) (rest : List Token) : Prop :=
  ∀ t ∈ ts, ∀ first ∈ rest.head?, t.accept Keywords.mysql first = none

namespace Avoids

theorem append_iff {ts ts' : List Terminal} {rest : List Token} :
    Avoids (ts ++ ts') rest ↔ Avoids ts rest ∧ Avoids ts' rest := by
  simp only [Avoids, List.mem_append]
  constructor
  · intro h
    exact ⟨fun t ht => h t (.inl ht), fun t ht => h t (.inr ht)⟩
  · rintro ⟨h, h'⟩ t (ht | ht)
    · exact h t ht
    · exact h' t ht

theorem nil (ts : List Terminal) : Avoids ts [] := by simp [Avoids]

end Avoids

namespace Rule

variable {calls : Nat} {r : DdlRule α} {c : Cursor} {ts : List Terminal}

/-- The rule fails where it begins. -/
def FailsHere (calls : Nat) (r : DdlRule α) (c : Cursor) : Prop :=
  ∃ f, r.read calls c = .failed f ∧ f.pos = c.pos

theorem FailsHere.early (h : r.FailsHere calls c) : r.FailsEarly calls c := by
  obtain ⟨f, failed, here⟩ := h
  exact ⟨f, failed, by omega⟩

theorem read_token (t : Terminal) : (Rule.token t : DdlRule String).read calls c =
    match c.rest with
    | [] => .failed ⟨c.pos, [t.expected]⟩
    | first :: rest => match t.accept Keywords.mysql first with
      | some value => .matched value ⟨c.pos + 1, rest, c.depth⟩
      | none => .failed ⟨c.pos, [t.expected]⟩ := by
  simp only [read, Engine.answer, Engine.run_token, Engine.token, Engine.fail]
  cases c.rest with
  | nil => rfl
  | cons first rest =>
    simp only [Engine.silent, Engine.standard]
    cases t.accept Keywords.mysql first <;> rfl

theorem failsHere_token {t : Terminal} (avoids : Avoids [t] c.rest) :
    (Rule.token t : DdlRule String).FailsHere calls c := by
  refine ⟨⟨c.pos, [t.expected]⟩, ?_, rfl⟩
  rw [read_token]
  cases rest : c.rest with
  | nil => rfl
  | cons first tail =>
    have refused := avoids t (by simp) first (by simp [rest])
    simp only [refused]

theorem FailsHere.map (f : α → β) (h : r.FailsHere calls c) : (Rule.map f r).FailsHere calls c := by
  obtain ⟨g, failed, here⟩ := h
  exact ⟨g, by rw [read_map, failed]; rfl, here⟩

theorem FailsHere.convert (f : α → Except String β) (h : r.FailsHere calls c) :
    (Rule.convert f r).FailsHere calls c := by
  obtain ⟨g, failed, here⟩ := h
  exact ⟨g, by rw [read_convert, failed]; rfl, here⟩

theorem FailsHere.both (h : r.FailsHere calls c) (s : DdlRule β) :
    (Rule.both r s).FailsHere calls c := by
  obtain ⟨g, failed, here⟩ := h
  exact ⟨g, by rw [read_both, failed]; rfl, here⟩

theorem FailsHere.both_of_matched {s : DdlRule β} {x : α} (h : r.read calls c = .matched x c)
    (h' : s.FailsHere calls c) : (Rule.both r s).FailsHere calls c := by
  obtain ⟨g, failed, here⟩ := h'
  exact ⟨g, by rw [read_both, h, Outcome.handle_matched, failed]; rfl, here⟩

theorem FailsHere.either {s : DdlRule α} (h : r.FailsHere calls c) (h' : s.FailsHere calls c) :
    (Rule.either r s).FailsHere calls c := by
  obtain ⟨f, failed, here⟩ := h
  obtain ⟨g, failed', here'⟩ := h'
  refine ⟨f.deeper g, ?_, by rw [Failure.deeper_pos]; omega⟩
  rw [read_either, failed, Outcome.handle_failed, if_neg (by omega), failed',
    Outcome.handle_failed, if_neg (by omega)]

theorem FailsHere.sepBy1 (h : r.FailsHere calls c) (s : DdlRule β) :
    (Rule.sepBy1 r s).FailsHere calls c := by
  obtain ⟨g, failed, here⟩ := h
  exact ⟨g, by rw [read_sepBy1, failed]; rfl, here⟩

theorem FailsEarly.map (f : α → β) (h : r.FailsEarly calls c) : (Rule.map f r).FailsEarly calls c := by
  obtain ⟨g, failed, near⟩ := h
  exact ⟨g, by rw [read_map, failed]; rfl, near⟩

theorem FailsEarly.both (h : r.FailsEarly calls c) (s : DdlRule β) :
    (Rule.both r s).FailsEarly calls c := by
  obtain ⟨g, failed, near⟩ := h
  exact ⟨g, by rw [read_both, failed]; rfl, near⟩

/-- The second part fails right after at most one token for the first. -/
theorem FailsEarly.both_of_matched {s : DdlRule β} {x : α} {mid : Cursor}
    (h : r.read calls c = .matched x mid) (near : mid.pos ≤ c.pos + 1)
    (h' : s.FailsHere calls mid) : (Rule.both r s).FailsEarly calls c := by
  obtain ⟨g, failed, here⟩ := h'
  exact ⟨g, by rw [read_both, h, Outcome.handle_matched, failed]; rfl, by omega⟩

theorem read_either_of_early {s : DdlRule α} {x : α} {next : Cursor} (h : r.FailsEarly calls c)
    (h' : s.read calls c = .matched x next) : (Rule.either r s).read calls c = .matched x next :=
  either_matched_iff.2 (.inr ⟨h, h'⟩)

theorem read_optional_of_early (h : r.FailsEarly calls c) :
    (Rule.optional r).read calls c = .matched none c :=
  optional_matched_iff.2 (.inr ⟨rfl, rfl, h⟩)

theorem read_many_of_early (h : r.FailsEarly calls c) :
    (Rule.many r).read calls c = .matched [] c := by
  obtain ⟨f, failed, near⟩ := h
  rw [read_many, failed, Outcome.handle_failed, if_neg (by omega)]

/-- The rule fails where it begins, unless it can match nothing; then it does. -/
structure Declines (calls : Nat) (r : DdlRule α) (c : Cursor) : Prop where
  fails : r.nullable = false → r.FailsHere calls c
  empty : r.nullable = true → ∃ x, r.read calls c = .matched x c

namespace Declines

theorem of_fails (never : r.nullable = false) (h : r.FailsHere calls c) : r.Declines calls c where
  fails _ := h
  empty can := by
    rw [never] at can
    cases can

theorem map (f : α → β) (h : r.Declines calls c) : (Rule.map f r).Declines calls c where
  fails never := (h.fails never).map f
  empty can := by
    obtain ⟨x, matched⟩ := h.empty can
    exact ⟨f x, by rw [read_map, matched]; rfl⟩

theorem both {s : DdlRule β} (hr : r.Declines calls c)
    (hs : r.nullable = true → s.Declines calls c) : (Rule.both r s).Declines calls c := by
  cases can : r.nullable with
  | false =>
    exact .of_fails (by simp [nullable, can]) ((hr.fails can).both s)
  | true =>
    obtain ⟨x, matched⟩ := hr.empty can
    refine ⟨fun never => ?_, fun canBoth => ?_⟩
    · exact .both_of_matched matched ((hs can).fails (by simpa [nullable, can] using never))
    · obtain ⟨y, matched'⟩ := (hs can).empty (by simpa [nullable, can] using canBoth)
      exact ⟨(x, y), both_matched_iff.2 ⟨c, matched, matched'⟩⟩

theorem either {s : DdlRule α} (hr : r.Declines calls c) (hs : s.Declines calls c) :
    (Rule.either r s).Declines calls c where
  fails never := by
    obtain ⟨neverR, neverS⟩ := Bool.or_eq_false_iff.1 never
    exact (hr.fails neverR).either (hs.fails neverS)
  empty can := by
    cases canR : r.nullable with
    | true =>
      obtain ⟨x, matched⟩ := hr.empty canR
      exact ⟨x, either_matched_iff.2 (.inl matched)⟩
    | false =>
      obtain ⟨x, matched⟩ := hs.empty (by simpa [nullable, canR] using can)
      exact ⟨x, read_either_of_early (hr.fails canR).early matched⟩

theorem optional (h : r.Declines calls c) : (Rule.optional r).Declines calls c where
  fails := nofun
  empty _ := by
    cases can : r.nullable with
    | true =>
      obtain ⟨x, matched⟩ := h.empty can
      exact ⟨some x, optional_matched_iff.2 (.inl ⟨x, rfl, matched⟩)⟩
    | false => exact ⟨none, read_optional_of_early (h.fails can).early⟩

theorem many (h : r.Declines calls c) : (Rule.many r).Declines calls c where
  fails := nofun
  empty _ := by
    cases can : r.nullable with
    | true =>
      obtain ⟨x, matched⟩ := h.empty can
      exact ⟨[], by rw [read_many, matched]; simp⟩
    | false => exact ⟨[], read_many_of_early (h.fails can).early⟩

end Declines

/-- Where none of its first terminals takes the token, a rule declines. -/
theorem declines_of_avoids (known : r.first = some ts) (avoids : Avoids ts c.rest) :
    r.Declines calls c := by
  induction r generalizing ts with
  | token t =>
    obtain rfl : [t] = ts := Option.some.inj known
    exact .of_fails rfl (failsHere_token avoids)
  | map f r ih => exact (ih known avoids).map f
  | convert f r ih =>
    simp only [first, Option.ite_none_left_eq_some, Bool.not_eq_true] at known
    exact .of_fails known.1 (((ih known.2 avoids).fails known.1).convert f)
  | both a b iha ihb =>
    simp only [first] at known
    split at known
    · simp only [Option.bind_eq_some_iff, Option.map_eq_some_iff] at known
      obtain ⟨ta, ha, tb, hb, rfl⟩ := known
      obtain ⟨avoidsA, avoidsB⟩ := Avoids.append_iff.1 avoids
      exact (iha ha avoidsA).both fun _ => ihb hb avoidsB
    · rename_i never
      exact (iha known avoids).both fun can => absurd can never
  | either a b iha ihb =>
    simp only [first, Option.bind_eq_some_iff, Option.map_eq_some_iff] at known
    obtain ⟨ta, ha, tb, hb, rfl⟩ := known
    obtain ⟨avoidsA, avoidsB⟩ := Avoids.append_iff.1 avoids
    exact (iha ha avoidsA).either (ihb hb avoidsB)
  | optional r ih => exact (ih known avoids).optional
  | many r ih => exact (ih known avoids).many
  | sepBy1 item separator ih _ =>
    simp only [first, Option.ite_none_left_eq_some, Bool.not_eq_true] at known
    exact .of_fails known.1 (((ih known.2 avoids).fails known.1).sepBy1 separator)
  -- the others have no list of first terminals
  | atEnd | call name | nested r => cases known

theorem failsHere_of_avoids (known : r.first = some ts) (some : r.nullable = false)
    (avoids : Avoids ts c.rest) : r.FailsHere calls c :=
  (declines_of_avoids known avoids).fails some

theorem consumes_token {t : Terminal} : (Rule.token t : DdlRule String).Consumes calls := by
  intro c x next h
  rw [read_token] at h
  split at h
  · cases h
  · split at h
    · cases h
      exact Nat.succ_ne_self _
    · cases h

namespace Consumes

theorem map (f : α → β) (h : r.Consumes calls) : (Rule.map f r).Consumes calls := by
  intro c x next read
  obtain ⟨y, matched, -⟩ := map_matched_iff.1 read
  exact h matched

theorem convert (f : α → Except String β) (h : r.Consumes calls) :
    (Rule.convert f r).Consumes calls := by
  intro c x next read
  obtain ⟨y, matched, -⟩ := convert_matched_iff.1 read
  exact h matched

theorem both {s : DdlRule β} (h : r.Consumes calls ∨ s.Consumes calls) :
    (Rule.both r s).Consumes calls := by
  intro c x next read
  obtain ⟨mid, first, second⟩ := both_matched_iff.1 read
  have := (reaches_of_read first).le
  have := (reaches_of_read second).le
  rcases h with h | h
  · have := h first
    omega
  · have := h second
    omega

theorem either {s : DdlRule α} (hr : r.Consumes calls) (hs : s.Consumes calls) :
    (Rule.either r s).Consumes calls := by
  intro c x next read
  rcases either_matched_iff.1 read with matched | ⟨-, matched⟩
  · exact hr matched
  · exact hs matched

theorem sepBy1 (h : r.Consumes calls) (s : DdlRule β) : (Rule.sepBy1 r s).Consumes calls := by
  intro c x next read
  obtain ⟨y, mid, ys, -, first, rounds⟩ := sepBy1_matched_iff.1 read
  have moved := h first
  have := (reaches_of_read first).le
  have := rounds.le
  omega

theorem nested (h : r.Consumes calls) : (Rule.nested r).Consumes calls := by
  intro c x next read
  obtain ⟨-, inner, matched, rfl⟩ := nested_matched_iff.1 read
  have moved := h matched
  exact moved

end Consumes

/-- With named rules that take some token, so does every rule that cannot match nothing. -/
theorem consumes_of_calls (names : ∀ {α : Type} (name : Nonterminal α),
    (Rule.call name).Consumes calls) (some : r.nullable = false) : r.Consumes calls := by
  induction r with
  | token t => exact consumes_token
  | call name => exact names name
  | map f r ih => exact Consumes.map f (ih some)
  | convert f r ih => exact Consumes.convert f (ih some)
  | both a b iha ihb => exact Consumes.both ((Bool.and_eq_false_iff.1 some).imp iha ihb)
  | either a b iha ihb =>
    obtain ⟨someA, someB⟩ := Bool.or_eq_false_iff.1 some
    exact Consumes.either (iha someA) (ihb someB)
  | sepBy1 item separator ih _ => exact Consumes.sepBy1 (ih some) separator
  | nested r ih => exact Consumes.nested (ih some)
  | atEnd | optional r | many r => cases some

theorem consumes_call (calls : Nat) (name : Nonterminal α) : (Rule.call name).Consumes calls := by
  induction calls generalizing α with
  | zero =>
    intro c x next h
    cases h
  | succ calls ih =>
    intro c x next h
    have some : name.rule.nullable = false := by cases name <;> rfl
    exact consumes_of_calls ih some h

theorem consumes_of_some (some : r.nullable = false) : r.Consumes calls :=
  consumes_of_calls (consumes_call calls) some

end Rule

theorem token_matched_iff {calls : Nat} {t : Terminal} {c next : Cursor} {x : String} :
    (Rule.token t : DdlRule String).read calls c = .matched x next ↔
      ∃ first rest, c.rest = first :: rest ∧ t.accept Keywords.mysql first = some x ∧
        next = ⟨c.pos + 1, rest, c.depth⟩ := by
  rw [Rule.read_token]
  cases c.rest with
  | nil => simp
  | cons first rest =>
    cases accepted : t.accept Keywords.mysql first with
    | none => simp [accepted]
    | some y =>
      simp only [accepted, Outcome.matched.injEq, List.cons.injEq]
      constructor
      · rintro ⟨rfl, rfl⟩
        exact ⟨first, rest, ⟨rfl, rfl⟩, accepted, rfl⟩
      · rintro ⟨_, _, ⟨rfl, rfl⟩, same, rfl⟩
        exact ⟨Option.some.inj (accepted.symm.trans same), rfl⟩

end TableDdl
