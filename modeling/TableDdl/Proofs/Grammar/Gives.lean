import TableDdl.Proofs.RoundTrip.Atoms

/-!
# What rules give

A property that the values of a rule have where the rule is read from tokens of a text, so many
levels of nesting below the limit. Main statement: each way to build a rule hands the properties
of the parts on, a list of one or more items is not empty, and one level more of nesting is one
level less below the limit.
-/
namespace TableDdl

variable {α β : Type} {calls levels : Nat}

/-- A content that a string literal can have: not both kinds of quotes are in it. -/
def LiteralOk (content : String) : Prop := ¬ ('\x27' ∈ content.toList ∧ '"' ∈ content.toList)

/-- One item or more, and all have the property. -/
def OneOrMore (P : α → Prop) (xs : List α) : Prop := xs ≠ [] ∧ ∀ x ∈ xs, P x

instance {P : α → Prop} [DecidablePred P] : DecidablePred (OneOrMore P) := fun xs =>
  inferInstanceAs (Decidable (xs ≠ [] ∧ ∀ x ∈ xs, P x))

namespace Rule

/-- What the rule reads from tokens of a text, with so many levels of nesting left, has the
property. -/
def Gives (calls levels : Nat) (P : α → Prop) (r : DdlRule α) : Prop :=
  ∀ ⦃c x next⦄, c.depth + levels = 32 → Scanned Keywords.mysql c.rest →
    r.read calls c = .matched x next → P x

namespace Gives

variable {P P' : α → Prop} {Q : β → Prop} {r s : DdlRule α} {q : DdlRule β}

theorem any (r : DdlRule α) : r.Gives calls levels fun _ => True := fun _ _ _ _ _ _ => trivial

theorem mono (h : r.Gives calls levels P) (weaker : ∀ x, P x → P' x) : r.Gives calls levels P' :=
  fun _ _ _ deep scanned read => weaker _ (h deep scanned read)

theorem identifier : Grammar.identifier.Gives calls levels NameOk := by
  intro c name next _ scanned read
  obtain ⟨first, rest, here, accepted, -⟩ := token_matched_iff.1 read
  exact nameOk_of_accept (scanned.1 first (by simp [here])) accepted

theorem string : Grammar.string.Gives calls levels LiteralOk := by
  intro c content next _ scanned read
  obtain ⟨first, rest, here, accepted, -⟩ := token_matched_iff.1 read
  exact writable_of_accept_string (scanned.1 first (by simp [here])) accepted

theorem unanswered {name : Nonterminal α} : Gives 0 levels P (.call name) :=
  fun _ _ _ _ _ read => nomatch read

theorem call {name : Nonterminal α} (h : name.rule.Gives calls levels P) :
    Gives (calls + 1) levels P (.call name) := h

theorem map {f : α → β} (h : r.Gives calls levels P) (values : ∀ x, P x → Q (f x)) :
    Gives calls levels Q (f <$> r) := by
  intro c y next deep scanned read
  obtain ⟨x, matched, rfl⟩ := map_matched_iff.1 read
  exact values x (h deep scanned matched)

theorem as {value : β} (given : Q value) (r : DdlRule α) : (r.as value).Gives calls levels Q :=
  (any r).map fun _ _ => given

theorem both (h : r.Gives calls levels P) (h' : q.Gives calls levels Q) :
    Gives calls levels (fun p => P p.1 ∧ Q p.2) (.both r q) := by
  rintro c ⟨x, y⟩ next deep scanned read
  obtain ⟨mid, first, second⟩ := both_matched_iff.1 read
  have deep' : mid.depth + levels = 32 := (depth_of_read first).symm ▸ deep
  exact ⟨h deep scanned first, h' deep' (scanned_of_read scanned first) second⟩

theorem seq {g : DdlRule (α → β)} (hg : g.Gives calls levels fun f => ∀ x, P x → Q (f x))
    (h : r.Gives calls levels P) : Gives calls levels Q (g <*> r) :=
  (hg.both h).map fun p values => values.1 p.2 values.2

theorem seqLeft (h : r.Gives calls levels P) (q : DdlRule β) : Gives calls levels P (r <* q) :=
  (h.both (any q)).map fun _ values => values.1

theorem seqRight (r : DdlRule α) (h : q.Gives calls levels Q) : Gives calls levels Q (r *> q) :=
  ((any r).both h).map fun _ values => values.2

theorem orElse (h : r.Gives calls levels P) (h' : s.Gives calls levels P) :
    Gives calls levels P (r <|> s) := by
  intro c x next deep scanned read
  rcases either_matched_iff.1 read with matched | ⟨-, matched⟩
  · exact h deep scanned matched
  · exact h' deep scanned matched

theorem oneOf {rs : List (DdlRule α)} (h : r.Gives calls levels P)
    (others : ∀ s ∈ rs, s.Gives calls levels P) : Gives calls levels P (.oneOf r rs) := by
  induction rs generalizing r with
  | nil => exact h
  | cons s rs ih =>
    obtain ⟨next, rest⟩ := List.forall_mem_cons.1 others
    exact h.orElse (ih next rest)

theorem optional (h : r.Gives calls levels P) :
    r.optional.Gives calls levels fun o => ∀ x ∈ o, P x := by
  intro c o next deep scanned read
  rcases optional_matched_iff.1 read with ⟨x, rfl, matched⟩ | ⟨rfl, -⟩
  · rintro _ ⟨⟩
    exact h deep scanned matched
  · exact nofun

theorem of_rounds (h : r.Gives calls levels P) {c next : Cursor} {xs : List α}
    (deep : c.depth + levels = 32) (scanned : Scanned Keywords.mysql c.rest)
    (rounds : Rounds calls r c xs next) : ∀ x ∈ xs, P x :=
  forall_of_rounds scanned rounds fun same => h (same ▸ deep)

theorem many (h : r.Gives calls levels P) :
    r.many.Gives calls levels fun xs => ∀ x ∈ xs, P x := by
  intro c xs next deep scanned read
  induction length : c.rest.length using Nat.strongRecOn generalizing c xs with
  | ind n ih =>
    rw [read_many] at read
    cases first : r.read calls c with
    | matched x mid =>
      rw [first, Outcome.handle_matched] at read
      split at read
      · obtain ⟨rfl, -⟩ := Outcome.matched.inj read
        exact nofun
      · rename_i moved
        obtain ⟨ys, rest, rfl⟩ := Outcome.map_eq_matched_iff.1 read
        have shorter := (reaches_of_read first).length_lt moved
        have deep' := (depth_of_read first).symm ▸ deep
        exact List.forall_mem_cons.2 ⟨h deep scanned first,
          ih _ (length ▸ shorter) deep' (scanned_of_read scanned first) rest rfl⟩
    | failed f =>
      rw [first, Outcome.handle_failed] at read
      split at read
      · cases read
      · obtain ⟨rfl, -⟩ := Outcome.matched.inj read
        exact nofun
    | diverged =>
      rw [first] at read
      cases read

/-- There is a first item. -/
theorem sepBy1 (h : r.Gives calls levels P) (q : DdlRule β) :
    (r.sepBy1 q).Gives calls levels (OneOrMore P) := by
  intro c xs next deep scanned read
  obtain ⟨x, mid, ys, rfl, first, rounds⟩ := sepBy1_matched_iff.1 read
  have deep' := (depth_of_read first).symm ▸ deep
  have later := (seqRight q h).of_rounds deep' (scanned_of_read scanned first) rounds
  exact ⟨List.cons_ne_nil _ _, List.forall_mem_cons.2 ⟨h deep scanned first, later⟩⟩

/-- Inside there is one level less, and the rule is not read where no level is left. -/
theorem nested {P : Nat → α → Prop} (h : ∀ levels, r.Gives calls levels (P levels)) :
    r.nested.Gives calls levels fun x => ∃ inner, levels = inner + 1 ∧ P inner x := by
  intro c x next deep scanned read
  obtain ⟨room, inner, matched, -⟩ := nested_matched_iff.1 read
  obtain ⟨n, rfl⟩ : ∃ n, levels = n + 1 := ⟨levels - 1, by omega⟩
  have inside : ({ c with depth := c.depth + 1 } : Cursor).depth + n = 32 := by
    change c.depth + 1 + n = 32
    omega
  exact ⟨n, rfl, h n inside scanned matched⟩

theorem parenthesized (h : r.Gives calls levels P) :
    (Grammar.parenthesized r).Gives calls levels P :=
  (seqRight _ h).seqLeft _

theorem commaList (h : r.Gives calls levels P) :
    (Grammar.commaList r).Gives calls levels (OneOrMore P) :=
  h.sepBy1 _

/-- An absent list counts as an empty one. -/
theorem getD {l : DdlRule (List α)} (h : l.Gives calls levels fun xs => ∀ x ∈ xs, P x) :
    Gives calls levels (fun xs => ∀ x ∈ xs, P x) ((·.getD []) <$> l.optional) := by
  refine h.optional.map fun o all => ?_
  cases o with
  | none => exact nofun
  | some xs => exact all xs rfl

theorem commaList0 (h : r.Gives calls levels P) :
    (Grammar.commaList0 r).Gives calls levels fun xs => ∀ x ∈ xs, P x :=
  getD (h.commaList.mono fun _ => And.right)

theorem setting (key : DdlRule β) (h : r.Gives calls levels P) :
    (Grammar.setting key r).Gives calls levels P :=
  seqRight _ h

end Gives
end Rule
end TableDdl
