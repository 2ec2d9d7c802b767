import TableDdl.Proofs.Grammar.Failing
import TableDdl.Proofs.RoundTrip.Edges

/-!
# Foresight

What a rule does at the start of a text can often be told from the shapes of the first lexemes:
after how many of them it fails, or how many it takes.
-/
namespace TableDdl

variable {α β : Type}

/-- Whether every lexeme of the shape is accepted. -/
def Terminal.takes : Terminal → Shape → Bool
  | .literal text, .word w => Text.sameWord w text
  | .literal text, .symbol s => s == text
  | .identifier, .name => true
  | .string, .string => true
  | .number, .integer => true
  | .number, .number => true
  | _, _ => false

theorem Terminal.exists_accept {t : Terminal} {l : Lexeme} (writable : l.Writable)
    (h : t.takes l.shape = true) : ∃ x, t.accept Keywords.mysql l.token = some x := by
  cases t with
  | literal text =>
    cases l with
    | word w =>
      rw [accept_literal_word writable]
      exact ⟨text, if_pos h⟩
    | symbol s =>
      rw [accept_literal_symbol]
      exact ⟨text, if_pos (by simpa [takes, Lexeme.shape] using h)⟩
    | _ => cases h
  | identifier =>
    cases l with
    | name n => exact ⟨n, accept_identifier_name⟩
    | _ => cases h
  | string =>
    cases l with
    | string content => exact ⟨content, accept_string_string⟩
    | _ => cases h
  | number =>
    cases l with
    | integer n => exact ⟨_, accept_number_integer⟩
    | number x => exact ⟨_, accept_number_number⟩
    | _ => cases h

/-- What is known of a rule before it is tried. -/
inductive Foresight
  | fails (after : Nat)
  | takes (count : Nat)
  | unknown
deriving DecidableEq

/-- The same after `n` lexemes that another rule takes. -/
def Foresight.later (n : Nat) : Foresight → Foresight
  | .fails m => .fails (n + m)
  | .takes m => .takes (n + m)
  | .unknown => .unknown

/-- Another alternative may make up for a failure after one lexeme. -/
def Foresight.isEarly : Foresight → Bool
  | .fails n => n ≤ 1
  | _ => false

namespace Rule

variable {N : Type → Type}

def foresee {α : Type} : Rule N α → List Shape → Foresight
  | .token _, [] => .unknown
  | .token t, s :: _ =>
    if t.takes s then .takes 1 else if t.refuses s then .fails 0 else .unknown
  | .atEnd, _ => .unknown
  | .call _, _ => .unknown
  | .map _ r, ss => r.foresee ss
  | .convert _ r, ss =>
    match r.foresee ss with
    | .fails n => .fails n
    | _ => .unknown
  | .both a b, ss =>
    match a.foresee ss with
    | .takes n => (b.foresee (ss.drop n)).later n
    | other => other
  | .either a b, ss =>
    match a.foresee ss with
    | .fails n =>
      if n ≤ 1 then
        match b.foresee ss with
        | .fails m => .fails (max n m)
        | other => other
      else .unknown
    | other => other
  | .optional r, ss =>
    match r.foresee ss with
    | .fails n => if n ≤ 1 then .takes 0 else .unknown
    | other => other
  | .many r, ss =>
    match r.foresee ss with
    | .fails n => if n ≤ 1 then .takes 0 else .unknown
    | _ => .unknown
  | .sepBy1 item _, ss =>
    match item.foresee ss with
    | .fails n => .fails n
    | _ => .unknown
  | .nested _, _ => .unknown

end Rule

/-- The tokens at the cursor start with those of lexemes of the given shapes. -/
def Cursor.Shows (c : Cursor) (ss : List Shape) : Prop :=
  ∃ ls rest, (∀ l ∈ ls, l.Writable) ∧ ls.map Lexeme.shape = ss ∧ c.rest = tokensOf ls ++ rest

theorem Cursor.Shows.of_isPrefix {ss : List Shape} {ls : List Lexeme} {pos depth : Nat}
    {rest : List Token} (shapes : ss <+: ls.map Lexeme.shape) (writable : ∀ l ∈ ls, l.Writable) :
    Cursor.Shows ⟨pos, tokensOf ls ++ rest, depth⟩ ss := by
  obtain ⟨ms, whole⟩ := shapes
  obtain ⟨as, bs, rfl, rfl, rfl⟩ := List.map_eq_append_iff.1 whole.symm
  refine ⟨as, tokensOf bs ++ rest, fun l hl => writable l (List.mem_append_left bs hl), rfl, ?_⟩
  simp

/-- The outcome is as foreseen. -/
def Foresight.Holds (c : Cursor) (ss : List Shape) (outcome : Outcome α) : Foresight → Prop
  | .fails n => ∃ f, outcome = .failed f ∧ f.pos ≤ c.pos + n
  | .takes n => ∃ x next, outcome = .matched x next ∧ next.pos = c.pos + n ∧ next.Shows (ss.drop n)
  | .unknown => True

namespace Foresight.Holds

variable {c mid : Cursor} {ss : List Shape} {n : Nat} {seen : Foresight} {outcome : Outcome α}

theorem map (f : α → β) (h : seen.Holds c ss outcome) : seen.Holds c ss (outcome.map f) := by
  cases seen with
  | fails n =>
    obtain ⟨g, rfl, near⟩ := h
    exact ⟨g, rfl, near⟩
  | takes n =>
    obtain ⟨x, next, rfl, after⟩ := h
    exact ⟨f x, next, rfl, after⟩
  | unknown => exact trivial

/-- What is foreseen further on, seen from in front of `n` lexemes. -/
theorem later (h : seen.Holds mid (ss.drop n) outcome) (here : mid.pos = c.pos + n) :
    (seen.later n).Holds c ss outcome := by
  cases seen with
  | fails m =>
    obtain ⟨g, failed, near⟩ := h
    exact ⟨g, failed, by omega⟩
  | takes m =>
    obtain ⟨x, next, matched, after, shown⟩ := h
    rw [List.drop_drop] at shown
    exact ⟨x, next, matched, by omega, shown⟩
  | unknown => exact trivial

/-- The second alternative after the first has failed early. -/
theorem orElse {f : Failure} (near : f.pos ≤ c.pos + n) : seen.Holds c ss outcome →
    (match seen with
      | .fails m => .fails (max n m)
      | other => other : Foresight).Holds c ss
      (outcome.handle .matched fun g =>
        .failed (if c.pos + 1 < g.pos then g else f.deeper g)) := by
  intro h
  cases seen with
  | fails m =>
    obtain ⟨g, rfl, near'⟩ := h
    refine ⟨_, rfl, ?_⟩
    split
    · omega
    · rw [Failure.deeper_pos]
      omega
  | takes m =>
    obtain ⟨x, next, rfl, after⟩ := h
    exact ⟨x, next, rfl, after⟩
  | unknown => exact trivial

end Foresight.Holds

namespace Rule

variable {calls : Nat} {r a b : DdlRule α} {s : DdlRule β} {c : Cursor} {ss : List Shape}

/-- What is foreseen of the rule comes about wherever the tokens show those shapes. -/
def IsForeseen (calls : Nat) (r : DdlRule α) : Prop :=
  ∀ ⦃c ss⦄, c.Shows ss → (r.foresee ss).Holds c ss (r.read calls c)

theorem isForeseen_token (t : Terminal) : (Rule.token t).IsForeseen calls := by
  rintro c _ ⟨ls, rest, writable, rfl, here⟩
  rw [read_token, here]
  cases ls with
  | nil => exact trivial
  | cons l ls =>
    obtain ⟨first, others⟩ := List.forall_mem_cons.1 writable
    simp only [List.map_cons, foresee, tokensOf_cons, List.cons_append]
    by_cases takes : t.takes l.shape = true
    · obtain ⟨x, accepted⟩ := Terminal.exists_accept first takes
      rw [if_pos takes, accepted]
      exact ⟨x, _, rfl, rfl, ls, rest, others, rfl, rfl⟩
    · rw [if_neg takes]
      by_cases refuses : t.refuses l.shape = true
      · rw [if_pos refuses, Terminal.accept_eq_none first refuses]
        exact ⟨_, rfl, Nat.le_refl _⟩
      · rw [if_neg refuses]
        exact trivial

namespace IsForeseen

theorem map (f : α → β) (h : r.IsForeseen calls) : (Rule.map f r).IsForeseen calls := by
  intro c ss shows
  rw [read_map]
  exact (h shows).map f

/-- The failure of a part that comes first is the failure of the whole. -/
theorem of_failed {whole : DdlRule β} (h : r.IsForeseen calls)
    (fails : ∀ {c f}, r.read calls c = .failed f → whole.read calls c = .failed f)
    (seen : ∀ ss, whole.foresee ss = match r.foresee ss with
      | .fails n => .fails n
      | _ => .unknown) : whole.IsForeseen calls := by
  intro c ss shows
  have part := h shows
  rw [seen]
  cases ahead : r.foresee ss with
  | fails n =>
    rw [ahead] at part
    obtain ⟨g, failed, near⟩ := part
    exact ⟨g, fails failed, near⟩
  | _ => exact trivial

theorem convert (f : α → Except String β) (h : r.IsForeseen calls) :
    (Rule.convert f r).IsForeseen calls :=
  h.of_failed (fun failed => by rw [read_convert, failed]; rfl) fun _ => rfl

theorem sepBy1 (h : r.IsForeseen calls) (separator : DdlRule β) :
    (Rule.sepBy1 r separator).IsForeseen calls :=
  h.of_failed (fun failed => by rw [read_sepBy1, failed]; rfl) fun _ => rfl

theorem both (first : r.IsForeseen calls) (second : s.IsForeseen calls) :
    (Rule.both r s).IsForeseen calls := by
  intro c ss shows
  have part := first shows
  simp only [foresee, read_both]
  cases seen : r.foresee ss with
  | fails n =>
    rw [seen] at part
    obtain ⟨g, failed, near⟩ := part
    exact ⟨g, by rw [failed]; rfl, near⟩
  | unknown => exact trivial
  | takes n =>
    rw [seen] at part
    obtain ⟨x, mid, matched, here, shown⟩ := part
    rw [matched, Outcome.handle_matched]
    exact ((second shown).map (x, ·)).later here

theorem either (left : a.IsForeseen calls) (right : b.IsForeseen calls) :
    (Rule.either a b).IsForeseen calls := by
  intro c ss shows
  have part := left shows
  simp only [foresee, read_either]
  cases seen : a.foresee ss with
  | unknown => exact trivial
  | takes n =>
    rw [seen] at part
    obtain ⟨x, next, matched, after⟩ := part
    exact ⟨x, next, by rw [matched]; rfl, after⟩
  | fails n =>
    rw [seen] at part
    obtain ⟨f, failed, near⟩ := part
    by_cases early : n ≤ 1
    · rw [failed, Outcome.handle_failed, if_neg (by omega)]
      simp only [early, if_true]
      exact .orElse near (right shows)
    · simp only [early, if_false]
      exact trivial

theorem optional (h : r.IsForeseen calls) : (Rule.optional r).IsForeseen calls := by
  intro c ss shows
  have part := h shows
  simp only [foresee]
  cases seen : r.foresee ss with
  | unknown => exact trivial
  | takes n =>
    rw [seen] at part
    obtain ⟨x, next, matched, after⟩ := part
    exact ⟨some x, next, optional_matched_iff.2 (.inl ⟨x, rfl, matched⟩), after⟩
  | fails n =>
    rw [seen] at part
    obtain ⟨f, failed, near⟩ := part
    by_cases early : n ≤ 1
    · simp only [early, if_true]
      exact ⟨none, c, read_optional_of_early ⟨f, failed, by omega⟩, rfl, shows⟩
    · simp only [early, if_false]
      exact trivial

theorem many (h : r.IsForeseen calls) : (Rule.many r).IsForeseen calls := by
  intro c ss shows
  have part := h shows
  simp only [foresee]
  cases seen : r.foresee ss with
  | fails n =>
    rw [seen] at part
    obtain ⟨f, failed, near⟩ := part
    by_cases early : n ≤ 1
    · simp only [early, if_true]
      exact ⟨[], c, read_many_of_early ⟨f, failed, by omega⟩, rfl, shows⟩
    · simp only [early, if_false]
      exact trivial
  | _ => exact trivial

end IsForeseen

/-- What is foreseen of a rule comes about. -/
theorem isForeseen (calls : Nat) (r : DdlRule α) : r.IsForeseen calls := by
  induction r with
  | token t => exact isForeseen_token t
  | map f r ih => exact ih.map f
  | convert f r ih => exact ih.convert f
  | both a b iha ihb => exact iha.both ihb
  | either a b iha ihb => exact iha.either ihb
  | optional r ih => exact ih.optional
  | many r ih => exact ih.many
  | sepBy1 item separator ih _ => exact ih.sepBy1 separator
  -- nothing is foreseen of the others
  | atEnd | call name | nested r => exact fun _ _ _ => trivial

/-- A rule that is foreseen to fail early does so. -/
theorem failsEarly_of_foresee (shows : c.Shows ss) (early : (r.foresee ss).isEarly = true) :
    r.FailsEarly calls c := by
  have holds := isForeseen calls r shows
  cases seen : r.foresee ss with
  | fails n =>
    rw [seen] at holds early
    obtain ⟨f, failed, near⟩ := holds
    have early : n ≤ 1 := by simpa [Foresight.isEarly] using early
    exact ⟨f, failed, by omega⟩
  | _ => simp [seen, Foresight.isEarly] at early

end Rule
end TableDdl
