import TableDdl.Proofs.Grammar.First
import TableDdl.Proofs.Grammar.Lowered

/-!
# Terminals in front

The terminals that a rule may begin with, those of the named rules included. Where none of them
takes the next token, the rule fails there, with every limit of nesting, or takes no token.
-/
namespace TableDdl

variable {α β : Type}

namespace Nonterminal

def termLeads : List Terminal :=
  [.literal "SELECT", .literal "*", .number, .string, .literal "TRUE", .literal "FALSE",
    .literal "NULL", .identifier, .literal "CURRENT_TIMESTAMP", .literal "LOCALTIME",
    .literal "LOCALTIMESTAMP", .literal "NOW", .literal "("]

/-- The terminals that the rule behind the name begins with. -/
def leads {α : Type} : Nonterminal α → List Terminal
  | .expression | .condition => .literal "NOT" :: .literal "EXISTS" :: termLeads
  | .term => termLeads
  | .select => [.literal "SELECT"]

end Nonterminal

namespace Rule

/-- The same for any rule. -/
def leads {α : Type} : DdlRule α → List Terminal
  | .token t => [t]
  | .atEnd => []
  | .call name => name.leads
  | .map _ r => r.leads
  | .convert _ r => r.leads
  | .both a b => if a.least = 0 then a.leads ++ b.leads else a.leads
  | .either a b => a.leads ++ b.leads
  | .optional r => r.leads
  | .many r => r.leads
  | .sepBy1 item _ => item.leads
  | .nested r => r.leads

variable {limit calls : Nat} {r : DdlRule α} {s : DdlRule β} {c : Cursor}

/-- The rule fails where it begins or takes no token, unless the reading goes on forever. -/
def Stays (limit calls : Nat) (r : DdlRule α) (c : Cursor) : Prop :=
  r.readTo limit calls c = .diverged ∨
    (∃ f, r.readTo limit calls c = .failed f ∧ f.pos = c.pos) ∨
    ∃ x, r.readTo limit calls c = .matched x c

namespace Stays

theorem token {t : Terminal} (avoids : Avoids [t] c.rest) :
    (Rule.token t : DdlRule String).Stays limit calls c := by
  refine .inr (.inl ⟨⟨c.pos, [t.expected]⟩, ?_, rfl⟩)
  rw [readTo_token]
  cases rest : c.rest with
  | nil => rfl
  | cons first tail =>
    have refused := avoids t (by simp) first (by simp [rest])
    simp only [refused]

theorem atEnd : (Rule.atEnd : DdlRule Unit).Stays limit calls c := by
  unfold Stays
  rw [readTo_atEnd]
  split
  · exact .inr (.inr ⟨(), rfl⟩)
  · exact .inr (.inl ⟨_, rfl, rfl⟩)

theorem map (f : α → β) (h : r.Stays limit calls c) : (Rule.map f r).Stays limit calls c := by
  unfold Stays
  rw [readTo_map]
  rcases h with same | ⟨g, same, here⟩ | ⟨x, same⟩ <;> rw [same]
  · exact .inl rfl
  · exact .inr (.inl ⟨g, rfl, here⟩)
  · exact .inr (.inr ⟨f x, rfl⟩)

theorem convert (f : α → Except String β) (h : r.Stays limit calls c) :
    (Rule.convert f r).Stays limit calls c := by
  unfold Stays
  rw [readTo_convert]
  rcases h with same | ⟨g, same, here⟩ | ⟨x, same⟩ <;> rw [same]
  · exact .inl rfl
  · exact .inr (.inl ⟨g, rfl, here⟩)
  · rw [Outcome.handle_matched]
    cases f x with
    | ok y => exact .inr (.inr ⟨y, rfl⟩)
    | error reason => exact .inr (.inl ⟨_, rfl, rfl⟩)

theorem both (hr : r.Stays limit calls c)
    (hs : (∃ x, r.readTo limit calls c = .matched x c) → s.Stays limit calls c) :
    (Rule.both r s).Stays limit calls c := by
  unfold Stays
  rw [readTo_both]
  rcases hr with same | ⟨g, same, here⟩ | ⟨x, same⟩ <;> rw [same]
  · exact .inl rfl
  · exact .inr (.inl ⟨g, rfl, here⟩)
  · rw [Outcome.handle_matched]
    rcases hs ⟨x, same⟩ with same | ⟨g, same, here⟩ | ⟨y, same⟩ <;> rw [same]
    · exact .inl rfl
    · exact .inr (.inl ⟨g, rfl, here⟩)
    · exact .inr (.inr ⟨(x, y), rfl⟩)

theorem either {s : DdlRule α} (hr : r.Stays limit calls c) (hs : s.Stays limit calls c) :
    (Rule.either r s).Stays limit calls c := by
  unfold Stays
  rw [readTo_either]
  rcases hr with same | ⟨g, same, here⟩ | ⟨x, same⟩ <;> rw [same]
  · exact .inl rfl
  · rw [Outcome.handle_failed, if_neg (by omega)]
    rcases hs with same | ⟨g', same, here'⟩ | ⟨y, same⟩ <;> rw [same]
    · exact .inl rfl
    · rw [Outcome.handle_failed, if_neg (by omega)]
      exact .inr (.inl ⟨_, rfl, by rw [Failure.deeper_pos]; omega⟩)
    · exact .inr (.inr ⟨y, rfl⟩)
  · exact .inr (.inr ⟨x, rfl⟩)

theorem optional (h : r.Stays limit calls c) : r.optional.Stays limit calls c := by
  unfold Stays
  rw [readTo_optional]
  rcases h with same | ⟨g, same, here⟩ | ⟨x, same⟩ <;> rw [same]
  · exact .inl rfl
  · rw [Outcome.handle_failed, if_neg (by omega)]
    exact .inr (.inr ⟨none, rfl⟩)
  · exact .inr (.inr ⟨some x, rfl⟩)

theorem many (h : r.Stays limit calls c) : r.many.Stays limit calls c := by
  unfold Stays
  rw [readTo_many]
  rcases h with same | ⟨g, same, here⟩ | ⟨x, same⟩ <;> rw [same]
  · exact .inl rfl
  · rw [Outcome.handle_failed, if_neg (by omega)]
    exact .inr (.inr ⟨[], rfl⟩)
  · rw [Outcome.handle_matched, if_pos rfl]
    exact .inr (.inr ⟨[], rfl⟩)

theorem sepBy1 (some : 1 ≤ r.least) (h : r.Stays limit calls c) (s : DdlRule β) :
    (r.sepBy1 s).Stays limit calls c := by
  unfold Stays
  rw [readTo_sepBy1]
  rcases h with same | ⟨g, same, here⟩ | ⟨x, same⟩
  · exact .inl (by rw [same]; rfl)
  · exact .inr (.inl ⟨g, by rw [same]; rfl, here⟩)
  · have := le_of_readTo same
    omega

theorem nested (h : r.Stays limit calls { c with depth := c.depth + 1 }) :
    r.nested.Stays limit calls c := by
  unfold Stays
  rw [readTo_nested]
  split
  · exact .inr (.inl ⟨_, rfl, rfl⟩)
  · rcases h with same | ⟨g, same, here⟩ | ⟨x, same⟩ <;> rw [same]
    · exact .inl rfl
    · exact .inr (.inl ⟨g, rfl, here⟩)
    · exact .inr (.inr ⟨x, rfl⟩)

end Stays

/-- No list begins with an item that may take no token. -/
def solid {α : Type} : DdlRule α → Bool
  | .token _ => true
  | .atEnd => true
  | .call _ => true
  | .map _ r => r.solid
  | .convert _ r => r.solid
  | .both a b => a.solid && b.solid
  | .either a b => a.solid && b.solid
  | .optional r => r.solid
  | .many r => r.solid
  | .sepBy1 item _ => item.solid && decide (1 ≤ item.least)
  | .nested r => r.solid

/-- Where the named rules stay at a token that they do not begin with, every rule does. -/
theorem stays_of_names
    (names : ∀ {β : Type} (name : Nonterminal β) {c : Cursor}, Avoids name.leads c.rest →
      (Rule.call name).Stays limit calls c)
    {r : DdlRule α} (solid : r.solid = true) (avoids : Avoids r.leads c.rest) :
    r.Stays limit calls c := by
  induction r generalizing c with
  | token t => exact .token avoids
  | atEnd => exact .atEnd
  | call name => exact names name avoids
  | map f _ ih => exact (ih solid avoids).map f
  | convert f _ ih => exact (ih solid avoids).convert f
  -- Where the first part may take nothing, the second one may come first.
  | both a b iha ihb =>
    obtain ⟨solidA, solidB⟩ := Bool.and_eq_true_iff.1 solid
    simp only [leads] at avoids
    split at avoids
    · obtain ⟨avoidsA, avoidsB⟩ := Avoids.append_iff.1 avoids
      exact (iha solidA avoidsA).both fun _ => ihb solidB avoidsB
    · refine (iha solidA avoids).both fun ⟨x, same⟩ => ?_
      have := le_of_readTo same
      omega
  | either a b iha ihb =>
    obtain ⟨solidA, solidB⟩ := Bool.and_eq_true_iff.1 solid
    obtain ⟨avoidsA, avoidsB⟩ := Avoids.append_iff.1 avoids
    exact (iha solidA avoidsA).either (ihb solidB avoidsB)
  | optional _ ih => exact (ih solid avoids).optional
  | many _ ih => exact (ih solid avoids).many
  | sepBy1 item separator iha _ =>
    obtain ⟨solidA, some⟩ := Bool.and_eq_true_iff.1 solid
    exact (iha solidA avoids).sepBy1 (of_decide_eq_true some) separator
  | nested _ ih => exact (ih (c := { c with depth := c.depth + 1 }) solid avoids).nested

theorem stays_of_avoids (solid : r.solid = true) (avoids : Avoids r.leads c.rest) :
    r.Stays limit calls c := by
  have rules {β : Type} (name : Nonterminal β) :
      name.rule.solid = true ∧ ∀ t ∈ name.rule.leads, t ∈ name.leads := by
    cases name <;> decide
  induction calls generalizing α c with
  | zero => exact stays_of_names (fun _ _ _ => .inl rfl) solid avoids
  | succ calls ih =>
    refine stays_of_names (fun name c refused => ?_) solid avoids
    exact ih (rules name).1 fun t ht => refused t ((rules name).2 t ht)

/-- A rule that takes a token fails at one that it does not begin with. -/
theorem failsIfAny_of_avoids (solid : r.solid = true) (some : 1 ≤ r.least)
    (avoids : Avoids r.leads c.rest) : (r.readTo limit calls c).FailsIfAny c.pos := by
  rcases stays_of_avoids solid avoids with
    same | ⟨f, same, here⟩ | ⟨x, same⟩
  · exact .inl same
  · exact .inr ⟨f, same, Nat.le_of_eq here⟩
  · have := le_of_readTo same
    omega

/-- A match that takes a token begins with a terminal in front. -/
theorem exists_lead (solid : r.solid = true) {x : α} {next : Cursor}
    (found : r.readTo limit calls c = .matched x next) (moved : next ≠ c) :
    ∃ t ∈ r.leads, ∃ first ∈ c.rest.head?, t.accept Keywords.mysql first ≠ none := by
  refine Classical.byContradiction fun nothing => ?_
  have avoids : Avoids r.leads c.rest := fun t ht first here =>
    Classical.byContradiction fun taken => nothing ⟨t, ht, first, here, taken⟩
  rcases stays_of_avoids solid avoids with
    same | ⟨f, same, -⟩ | ⟨y, same⟩
  · rw [same] at found
    cases found
  · rw [same] at found
    cases found
  · rw [same] at found
    obtain ⟨-, rfl⟩ := Outcome.matched.inj found
    exact moved rfl

end Rule
end TableDdl
