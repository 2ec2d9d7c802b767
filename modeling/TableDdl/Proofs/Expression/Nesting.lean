import TableDdl.Expression.Equality
import TableDdl.Proofs.Expression.Limits
import TableDdl.Proofs.Grammar.Halting
import TableDdl.Proofs.RoundTrip.Parsing
import TableDdl.Proofs.Token.Scanned

/-!
# The limit of nesting

What the limit of nesting does to the expressions that the parser accepts. Main statement: no
accepted tree is deeper than the limit, a tree is accepted with each lower limit that it is within,
and with each higher one if it is settled. A tree that is as deep as the limit need not be settled:
a query without levels for what follows a word leaves the word to the query around it.
-/
namespace TableDdl

open Grammar Outline

namespace Parser

/-- What a rule makes of a whole token list with that limit of nesting. -/
def valueWithin {α : Type} (limit : Nat) (rule : DdlRule α) (tokens : List Token) : Option α :=
  match (((Engine.standard Keywords.mysql).limited limit).outcome rule tokens none).1 with
  | .matched value _ => some value
  | .failed _ | .diverged => none

variable {α : Type} {limit : Nat} {rule : DdlRule α} {tokens : List Token} {x : α}

/-- The parser has a limit of 32 levels. -/
theorem parseTokens_eq_ok_iff_valueWithin {text : String} :
    parseTokens Keywords.mysql rule text tokens = .ok x ↔ valueWithin 32 rule tokens = some x := by
  unfold parseTokens valueWithin
  change _ ↔ (match ((Engine.standard Keywords.mysql).outcome rule tokens none).1 with
    | .matched value _ => some value
    | .failed _ | .diverged => none) = some x
  rcases (Engine.standard Keywords.mysql).outcome rule tokens none with ⟨_ | _ | _, _⟩ <;> simp

theorem valueWithin_eq_some_iff : valueWithin limit rule tokens = some x ↔
    ∃ next, rule.statement.readTo limit (Nonterminal.callDepth limit) (.start tokens) =
      .matched x next := by
  have same : (((Engine.standard Keywords.mysql).limited limit).outcome rule tokens none).1 =
      rule.statement.readTo limit (Nonterminal.callDepth limit) (.start tokens) :=
    Engine.run_fst _ Nonterminal.rule _ rule.statement _ none
  unfold valueWithin
  rw [same]
  cases rule.statement.readTo limit (Nonterminal.callDepth limit) (.start tokens) <;> simp

end Parser

namespace Rule.Nests

variable {calls : Nat}

/-- The end of the text is no place where a part could go on. -/
theorem atEnd : (Rule.atEnd : DdlRule Unit).Nests calls fun _ o => o = plain := by
  intro limit c x next found
  rw [readTo_atEnd] at found
  split at found
  · rename_i ended
    obtain ⟨-, rfl⟩ := Outcome.matched.inj found
    refine ⟨_, rfl, ⟨.refl c, Nat.zero_le _, nofun, nofun, fun _ _ text _ heads => ?_⟩,
      fun other _ => .inr ?_⟩
    · obtain ⟨t, here, -⟩ := heads
      rw [List.isEmpty_iff.1 ended] at here
      cases here
    · rw [readTo_atEnd, if_pos ended]
  · cases found

theorem statement : expression.statement.Nests calls fun e o =>
    o.nest = e.nest ∧ (∀ text ∈ o.clashes, text ∈ e.outline.clashes) ∧ o.awaits = [] := by
  have body : Rule.Nests calls
      (fun e o => o.nest = e.nest ∧ ∀ text ∈ o.clashes, text ∈ e.outline.clashes)
      (Grammar.expression <* (Grammar.literal ";").optional) := by
    refine .seqLeft (RecursionNests.of_calls calls).expression (RecursionNests.optional_plain
      (by decide) (by decide) (by decide)) ?_
    rintro e _ semicolon _ rfl rfl
    cases semicolon with
    | none => exact (append_nothing e.outline).symm ▸ ⟨rfl, fun _ clash => clash⟩
    | some => exact ⟨Nat.max_zero _, fun text clash => by simpa [given, plain, opening] using clash⟩
  refine body.seqLeft atEnd ?_
  rintro e o _ _ ⟨nest, clashes⟩ rfl
  refine ⟨(Nat.max_zero _).trans nest, fun text clash => clashes text ?_, rfl⟩
  simpa [plain, opening] using clash

end Rule.Nests

namespace Parser

variable {limit m n : Nat} {ts : List Token} {e : Expression}

theorem readTo_statement_ne_diverged (limit : Nat) (ts : List Token) :
    expression.statement.readTo limit (Nonterminal.callDepth limit) (.start ts) ≠ .diverged := by
  have rank : expression.statement.rank = 1 := by decide
  refine Rule.readTo_ne_diverged (by decide) ?_
  rw [rank, Nonterminal.callDepth]
  omega

/-- An accepted expression is within the limit, and it is accepted with each other limit that it is
within, if more levels would not give a part more words. -/
theorem valueWithin_other (accepted : valueWithin limit expression ts = some e) (other : Nat) :
    e.nest ≤ limit ∧ (e.nest ≤ other →
      (limit < other → (∀ t ∈ ts, t.Sound Keywords.mysql) ∧ e.Settled limit) →
        valueWithin other expression ts = some e) := by
  obtain ⟨next, found⟩ := valueWithin_eq_some_iff.1 accepted
  obtain ⟨calls, few, few'⟩ : ∃ calls, Nonterminal.callDepth limit ≤ calls ∧
      Nonterminal.callDepth other ≤ calls := ⟨max _ _, Nat.le_max_left _ _, Nat.le_max_right _ _⟩
  have more : expression.statement.readTo limit calls (.start ts) = .matched e next :=
    (Rule.readTo_mono few (readTo_statement_ne_diverged limit ts)).trans found
  obtain ⟨o, ⟨nest, clashes, awaits⟩, spans, reads⟩ := Rule.Nests.statement more
  refine ⟨nest ▸ spans.within, fun le up => ?_⟩
  have fits : o.Fits limit other (.start ts) next := by
    refine ⟨nest.trans_le le, fun h => (up h).1, fun h text clash => ?_⟩
    rcases clash with clash | ⟨never, -⟩
    · exact nest ▸ (up h).2 text (clashes text clash)
    · simp [awaits] at never
  have ends := readTo_statement_ne_diverged other ts
  have same := Rule.readTo_mono few' ends
  have found' := (reads other fits).resolve_left (same ▸ ends)
  exact valueWithin_eq_some_iff.2 ⟨next, same.symm.trans found'⟩

/-- The limit rejects the trees that are deeper and no others, and what is accepted with it is
accepted with a higher one if it is settled. -/
theorem valueWithin_expression_of_le (le : m ≤ n) (ts : List Token) (e : Expression) :
    (valueWithin n expression ts = some e ∧ e.nest ≤ m → valueWithin m expression ts = some e) ∧
      (valueWithin m expression ts = some e → e.nest ≤ m ∧
        ((∀ t ∈ ts, t.Sound Keywords.mysql) → e.Settled m →
          valueWithin n expression ts = some e)) := by
  constructor
  · rintro ⟨accepted, within⟩
    exact (valueWithin_other accepted m).2 within fun lt => absurd lt (Nat.not_lt.2 le)
  · intro accepted
    obtain ⟨within, again⟩ := valueWithin_other accepted n
    exact ⟨within, fun sound settled => again (within.trans le) fun _ => ⟨sound, settled⟩⟩

end Parser

/-- The column as an expression. -/
def Expression.column (name : String) : Expression :=
  .anyOf [.allOf [.test (.concat [.sum (.product (.name [name]) []) []]) none]]

/-- The query for all columns of a table as an expression. -/
def Expression.allFrom (table : String) (filter limit : Option Expression) : Expression :=
  .anyOf [.allOf [.test (.concat [.sum (.product (.select
    (.mk none none .all [.mk (.table [table]) none] filter limit none none)) []) []]) none]]

namespace Parser

/-- The query in the condition takes the word if there are levels for what follows. -/
theorem valueWithin_expression_of_le_inner : ∃ ts,
    let e := .allFrom "t" (some (.allFrom "u" none (some (.column "a")))) none
    tokenize Keywords.mysql "SELECT * FROM t WHERE SELECT * FROM u LIMIT a" = .ok ts ∧
      e.nest = 5 ∧ e.Settled 5 ∧ valueWithin 5 expression ts = some e ∧
      valueWithin 6 expression ts = some e := by
  let ts :=
    (tokenize Keywords.mysql "SELECT * FROM t WHERE SELECT * FROM u LIMIT a").toOption.getD []
  let e : Expression := .allFrom "t" (some (.allFrom "u" none (some (.column "a")))) none
  have cut : tokenize Keywords.mysql "SELECT * FROM t WHERE SELECT * FROM u LIMIT a" = .ok ts :=
    Parser.eq_ok_of_toOption (by decide +kernel)
  have settled : e.Settled 5 := by decide
  obtain ⟨lower, higher⟩ := valueWithin_expression_of_le (m := 5) (n := 6) (by decide) ts e
  have accepted : valueWithin 5 expression ts = some e := lower (by decide +kernel)
  have again := (higher accepted).2 (scanned_of_tokenize cut).1 settled
  exact ⟨ts, cut, by decide, settled, accepted, again⟩

/-- At the limit it leaves the word to the query around it. -/
theorem valueWithin_expression_ne_outer : ∃ ts,
    let e := .allFrom "t" (some (.allFrom "u" none none)) (some (.column "a"))
    tokenize Keywords.mysql "SELECT * FROM t WHERE SELECT * FROM u LIMIT a" = .ok ts ∧
      e.nest = 4 ∧ valueWithin 4 expression ts = some e ∧ valueWithin 5 expression ts ≠ some e :=
  ⟨(tokenize Keywords.mysql "SELECT * FROM t WHERE SELECT * FROM u LIMIT a").toOption.getD [],
    Parser.eq_ok_of_toOption (by decide +kernel), by decide, by decide +kernel, by decide +kernel⟩

end Parser
end TableDdl
