import TableDdl.Expression.Single
import TableDdl.Proofs.RoundTrip.Atoms

/-!
# Terms by themselves

A term that reads back reads back as an expression without operators, wherever no operator
follows and the term does not start like a condition. No expression starts at a token that its
first terminals avoid.
-/
namespace TableDdl

open Grammar

variable {α β : Type} {calls depth : Nat} {E : Edges} {x : α} {text : Written}

/-- The edges of a text that the terminals could go on with. -/
def Edges.avoiding (E : Edges) (ts : List Terminal) : Edges := ⟨E.opens, ts ++ E.follow, E.ends⟩

theorem Edges.andThen_absent (E : Edges) (ts : List Terminal) :
    E.andThen (.absent ts) = E.avoiding ts := by
  have opens : (E.andThen (.absent ts)).opens = E.opens := by
    simp only [andThen, absent]
    induction E.opens with
    | nil => rfl
    | cons first others ih => cases first <;> simp [ih]
  rw [avoiding, ← opens]
  simp [andThen, absent]

theorem Edges.avoiding_avoiding (E : Edges) (ts ts' : List Terminal) :
    (E.avoiding ts).avoiding ts' = E.avoiding (ts' ++ ts) := by simp [avoiding]

namespace Rule

variable {r : DdlRule α} {c : Cursor} {ts : List Terminal}

theorem FailsHere.call {name : Nonterminal α} (h : name.rule.FailsHere calls c) :
    (Rule.call name).FailsHere (calls + 1) c := h

/-- Too deep or not, the failure is where the rule begins. -/
theorem FailsHere.nested (h : r.FailsHere calls { c with depth := c.depth + 1 }) :
    r.nested.FailsHere calls c := by
  rw [FailsHere, read_nested]
  split
  · exact ⟨_, rfl, rfl⟩
  · obtain ⟨f, failed, here⟩ := h
    exact ⟨f, by rw [failed]; rfl, here⟩

namespace ReadsBack

theorem call {name : Nonterminal α} (h : name.rule.ReadsBack calls depth E x text) :
    (Rule.call name).ReadsBack (calls + 1) depth E x text := ⟨h.fits, h.sound, h.takes⟩

theorem nested (h : r.ReadsBack calls (depth + 1) E x text) (room : depth < 32) :
    r.nested.ReadsBack calls depth E x text where
  fits := h.fits
  sound := h.sound
  takes good pos rest avoids :=
    nested_matched_iff.2 ⟨room, _, h.takes good pos rest avoids, rfl⟩

/-- None of a repeated part. -/
theorem none (starts : r.Starts) : r.many.ReadsBack calls depth (.absent r.starts) [] .nil where
  fits := Edges.fits_absent r.starts
  sound := Written.sound_nil
  takes _ pos rest avoids := by
    have fails : r.FailsHere calls ⟨pos, rest, depth⟩ :=
      failsHere_of_avoids starts.first_eq starts.solid avoids
    exact read_many_of_early fails.early

/-- One item, where no separator follows. -/
theorem single {s : DdlRule β} (h : r.ReadsBack calls depth E x text) (starts : s.Starts) :
    (r.sepBy1 s).ReadsBack calls depth (E.avoiding s.starts) [x] text where
  fits := ⟨h.fits.opens, h.fits.ends⟩
  sound := h.sound
  takes good pos rest avoids := by
    obtain ⟨avoids, follow⟩ := Avoids.append_iff.1 avoids
    have fails : s.FailsHere calls ⟨pos + text.lexemes.length, rest, depth⟩ :=
      failsHere_of_avoids starts.first_eq starts.solid avoids
    have stops : (Rule.map Prod.snd (.both s r)).FailsEarly calls
        ⟨pos + text.lexemes.length, rest, depth⟩ := (fails.both r).early.map Prod.snd
    exact sepBy1_matched_iff.2 ⟨x, _, [], rfl, h.takes good pos rest follow, .stop stops⟩

/-- A part that is not there adds nothing to the text. -/
theorem seqAbsent {r : DdlRule (β → α)} {s : DdlRule β} {f : β → α} {y : β}
    (h : r.ReadsBack calls depth E f text) (h' : s.ReadsBack calls depth (.absent ts) y .nil) :
    (r <*> s).ReadsBack calls depth (E.avoiding ts) (f y) text := by
  rw [← Edges.andThen_absent, ← Written.append_nil text]
  exact h.seq h' rfl

end ReadsBack
end Rule

/-- What an expression could go on with after its last term. -/
def expressionFollow : List Terminal :=
  (literal "OR" : DdlRule String).starts ++ ((literal "AND" : DdlRule String).starts
    ++ (predicate.starts ++ ((literal "||" : DdlRule String).starts
      ++ ((Addend.mk <$> spelled <*> factor : DdlRule Addend).starts
        ++ (Multiplier.mk <$> spelled <*> term : DdlRule Multiplier).starts))))

/-- A term is an expression where no operator follows, unless a condition may start as it does. -/
theorem readsBack_ofTerm {t : Term} (h : term.ReadsBack calls (depth + 1) E t text)
    (negation : E.refusedBy [.literal "NOT"] = true)
    (existence : E.refusedBy [.literal "EXISTS"] = true) (room : depth < 32) :
    expression.ReadsBack (calls + 2) depth (E.avoiding expressionFollow) (.ofTerm t) text := by
  have factors : factor.ReadsBack calls (depth + 1) _ (.product t []) text :=
    (h.map _).seqAbsent (.none ⟨rfl, rfl⟩)
  have summands : summand.ReadsBack calls (depth + 1) _ (.sum (.product t []) []) text :=
    (factors.map _).seqAbsent (.none ⟨rfl, rfl⟩)
  have operands : operand.ReadsBack calls (depth + 1) _ (.ofTerm t) text :=
    (summands.single ⟨rfl, rfl⟩).map _
  have starts : predicate.Starts := ⟨rfl, rfl⟩
  have test := (operands.map Condition.test).seqAbsent (.absent starts.first_eq starts.solid)
  have conditions : conditionRule.ReadsBack calls (depth + 1) _ (.test (.ofTerm t) none) text :=
    .refusing (.refusing test ⟨rfl, rfl⟩ existence) ⟨rfl, rfl⟩ negation
  have conjunctions : conjunction.ReadsBack (calls + 1) (depth + 1) _ (.allOf [.test (.ofTerm t) none])
      text := (conditions.call.single ⟨rfl, rfl⟩).map _
  have expressions : expressionRule.ReadsBack (calls + 1) depth _ (.ofTerm t) text :=
    .nested ((conjunctions.single ⟨rfl, rfl⟩).map Expression.anyOf) room
  rw [expressionFollow]
  simp only [← Edges.avoiding_avoiding]
  exact expressions.call

/-- The terminals that a term starts with, but for the word of a query. -/
def termStarts : List Terminal :=
  [.literal "*", .number, .string, .literal "TRUE", .literal "FALSE", .literal "NULL", .identifier]
    ++ timeFunctionNames.map .literal ++ [.literal "("]

def expressionStarts : List Terminal :=
  [.literal "NOT"] ++ ([.literal "EXISTS"] ++ ([.literal "SELECT"] ++ termStarts))

variable {c : Cursor}

theorem failsHere_select (avoids : Avoids [.literal "SELECT"] c.rest) :
    select.FailsHere (calls + 1) c :=
  .call (Rule.failsHere_of_avoids rfl rfl avoids)

theorem failsHere_term (query : Avoids [.literal "SELECT"] c.rest) (other : Avoids termStarts c.rest) :
    term.FailsHere (calls + 2) c := by
  have rule : termRule.FailsHere (calls + 1) c :=
    ((failsHere_select query).map _).either (Rule.failsHere_of_avoids rfl rfl other)
  exact rule.call

theorem failsHere_expression (avoids : Avoids expressionStarts c.rest) :
    expression.FailsHere (calls + 4) c := by
  obtain ⟨negation, avoids⟩ := Avoids.append_iff.1 avoids
  obtain ⟨existence, avoids⟩ := Avoids.append_iff.1 avoids
  obtain ⟨query, other⟩ := Avoids.append_iff.1 avoids
  let inner : Cursor := { c with depth := c.depth + 1 }
  have terms : term.FailsHere (calls + 2) inner := failsHere_term query other
  have factors : factor.FailsHere (calls + 2) inner := ((terms.map _).both _).map _
  have summands : summand.FailsHere (calls + 2) inner := ((factors.map _).both _).map _
  have operands : operand.FailsHere (calls + 2) inner := (summands.sepBy1 _).map _
  have conditions : conditionRule.FailsHere (calls + 2) inner :=
    .either (Rule.failsHere_of_avoids rfl rfl negation)
      (.either (Rule.failsHere_of_avoids rfl rfl existence) (((operands.map _).both _).map _))
  have conjunctions : conjunction.FailsHere (calls + 3) inner := (conditions.call.sepBy1 _).map _
  have expressions : expressionRule.FailsHere (calls + 3) c := .nested ((conjunctions.sepBy1 _).map _)
  exact expressions.call

/-- No items at all, where no expression follows. -/
theorem readsBack_noItems : (commaList0 expression).ReadsBack (calls + 4) depth
    (.absent expressionStarts) [] .nil where
  fits := Edges.fits_absent _
  sound := Written.sound_nil
  takes _ pos rest avoids := by
    have fails : expression.FailsHere (calls + 4) ⟨pos, rest, depth⟩ := failsHere_expression avoids
    exact Rule.map_matched_iff.2 ⟨none, Rule.read_optional_of_early (fails.sepBy1 _).early, rfl⟩

end TableDdl
