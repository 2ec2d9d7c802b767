import TableDdl.Parser
import TableDdl.Proofs.Grammar.Indistinct
import TableDdl.Proofs.Layout.Tokens
import TableDdl.Proofs.RoundTrip.Atoms

/-!
# Parsing and written forms

A text that is accepted is what its rule takes, with or without a semicolon after it. A layout
whose lexemes the rule takes is parsed as the value: the places of the tokens do not matter.
-/
namespace TableDdl.Parser

variable {α : Type} {rule : DdlRule α} {x : α}

/-- How many named rules the parser lets stand inside each other. -/
def calls : Nat := Nonterminal.callDepth (Engine.standard Keywords.mysql).maxDepth

theorem eq_ok_of_toOption {parsed : Except Error α} (h : parsed.toOption = some x) :
    parsed = .ok x := by
  cases parsed with
  | ok y => rw [Option.some.inj h]
  | error e => cases h

theorem ne_ok_of_toOption {parsed : Except Error α} (h : parsed.toOption ≠ some x) :
    parsed ≠ .ok x := by
  rintro rfl
  exact h rfl

theorem ne_ok_of_isNone {parsed : Except Error α} (h : parsed.toOption.isNone = true) (x : α) :
    parsed ≠ .ok x := by
  rintro rfl
  cases h

theorem atEnd_matched_iff {calls : Nat} {c next : Cursor} {u : Unit} :
    (Rule.atEnd : DdlRule Unit).read calls c = .matched u next ↔ c.rest = [] ∧ next = c := by
  rw [Rule.read, Engine.answer, Engine.run_atEnd, Engine.atEnd]
  by_cases ended : c.rest = []
  · simp [ended, eq_comm]
  · simp [ended, Engine.fail]

/-- A statement is a value, a semicolon or none, and the end of the text. -/
theorem statement_matched_iff {calls : Nat} {c next : Cursor} :
    rule.statement.read calls c = .matched x next ↔
      ∃ mid o, rule.read calls c = .matched x mid ∧
        (Grammar.literal ";").optional.read calls mid = .matched o next ∧ next.rest = [] := by
  constructor
  · intro read
    obtain ⟨_, mid', body, last⟩ := Rule.seqLeft_matched_iff.1 read
    obtain ⟨ended, rfl⟩ := atEnd_matched_iff.1 last
    obtain ⟨o, mid, first, second⟩ := Rule.seqLeft_matched_iff.1 body
    exact ⟨mid, o, first, second, ended⟩
  · rintro ⟨mid, o, first, second, ended⟩
    have body : (rule <* (Grammar.literal ";").optional).read calls c = .matched x next :=
      Rule.seqLeft_matched_iff.2 ⟨o, mid, first, second⟩
    exact Rule.seqLeft_matched_iff.2 ⟨(), next, body, atEnd_matched_iff.2 ⟨ended, rfl⟩⟩

theorem parseTokens_eq_ok_iff {sql : String} {ts : List Token} :
    parseTokens Keywords.mysql rule sql ts = .ok x ↔
      ∃ next, rule.statement.read calls (.start ts) = .matched x next := by
  have same : ((Engine.standard Keywords.mysql).outcome rule ts none).1 =
      rule.statement.read calls (.start ts) :=
    Engine.run_fst (Engine.standard Keywords.mysql) Nonterminal.rule calls rule.statement _ none
  unfold parseTokens
  rw [← same]
  rcases (Engine.standard Keywords.mysql).outcome rule ts none with ⟨⟨y, next⟩ | f | _, notes⟩
  · simp [eq_comm]
  · simp
  · simp

/-- What is accepted is what the rule takes, up to a semicolon at the end. -/
theorem parseTokens_iff_read {sql : String} {ts : List Token} :
    parseTokens Keywords.mysql rule sql ts = .ok x ↔
      ∃ mid, rule.read calls (.start ts) = .matched x mid ∧
        (mid.rest = [] ∨ ∃ t, mid.rest = [t] ∧ t.spells ";" = true) := by
  rw [parseTokens_eq_ok_iff]
  constructor
  · rintro ⟨next, read⟩
    obtain ⟨mid, o, first, second, ended⟩ := statement_matched_iff.1 read
    refine ⟨mid, first, ?_⟩
    rcases Rule.optional_matched_iff.1 second with ⟨y, rfl, semicolon⟩ | ⟨rfl, rfl, -⟩
    · obtain ⟨t, rest, whole, accepted, rfl⟩ := token_matched_iff.1 semicolon
      obtain rfl : rest = [] := ended
      exact .inr ⟨t, whole, by simpa [Terminal.accept] using And.left <|
        (Option.ite_none_right_eq_some.1 accepted)⟩
    · exact .inl ended
  · rintro ⟨mid, first, ended | ⟨t, whole, spells⟩⟩
    · have avoids : Avoids [.literal ";"] mid.rest := ended ▸ Avoids.nil _
      have refused : (Grammar.literal ";").FailsEarly calls mid :=
        (Rule.failsHere_token avoids).early
      exact ⟨mid, statement_matched_iff.2 ⟨mid, none, first, Rule.optional_matched_iff.2
        (.inr ⟨rfl, rfl, refused⟩), ended⟩⟩
    · have taken : (Grammar.literal ";").read calls mid =
          .matched ";" ⟨mid.pos + 1, [], mid.depth⟩ :=
        token_matched_iff.2 ⟨t, [], whole, by simp [Terminal.accept, spells], rfl⟩
      exact ⟨_, statement_matched_iff.2 ⟨mid, some ";", first, Rule.optional_matched_iff.2
        (.inl ⟨_, rfl, taken⟩), rfl⟩⟩

theorem read_of_parse {sql : String} (parsed : parse Keywords.mysql rule sql = .ok x) :
    ∃ ts mid, tokenize Keywords.mysql sql = .ok ts ∧
      rule.read calls (.start ts) = .matched x mid ∧
      (mid.rest = [] ∨ ∃ t, mid.rest = [t] ∧ t.spells ";" = true) := by
  cases cut : tokenize Keywords.mysql sql with
  | error e => simp [parse, cut, Except.bind] at parsed
  | ok ts =>
    have parsed : parseTokens Keywords.mysql rule sql ts = .ok x := by
      simpa [parse, cut, Except.bind] using parsed
    obtain ⟨mid, read, ended⟩ := parseTokens_iff_read.1 parsed
    exact ⟨ts, mid, rfl, read, ended⟩

/-- Token lists that no terminal of the rules tells apart are accepted alike. -/
theorem parseTokens_indistinct {keywords : Keywords} {kind : Terminal → Bool}
    {text text' : String} {ts us : List Token}
    (named : ∀ {β : Type} (name : Nonterminal β), name.rule.uses kind = true)
    (own : rule.statement.uses kind = true)
    (same : List.Forall₂ (fun t u => ∀ terminal : Terminal, kind terminal = true →
      terminal.accept keywords u = terminal.accept keywords t) ts us) :
    parseTokens keywords rule text' us = .ok x ↔ parseTokens keywords rule text ts = .ok x := by
  have start : (Cursor.start ts).Paired _ (.start us) := ⟨rfl, rfl, same⟩
  have runs : Engine.MirrorsAnswer _ ((Engine.standard keywords).outcome rule ts none)
      ((Engine.standard keywords).outcome rule us none) :=
    Engine.mirrors_run_of_uses Nonterminal.rule named (fun _ _ h => h) _ own start
  obtain ⟨outcome, -⟩ := runs
  rcases first : (Engine.standard keywords).outcome rule ts none with ⟨o, furthest⟩
  rcases second : (Engine.standard keywords).outcome rule us none with ⟨o', furthest'⟩
  rw [first, second] at outcome
  simp only [parseTokens, first, second]
  cases outcome with
  | matched y _ => rfl
  | failed f => simp
  | diverged => simp

/-- Texts with the same kinds and texts of tokens are accepted alike. -/
theorem parseTokens_anywhere {keywords : Keywords} {text text' : String} {ts us : List Token}
    (same : us.map Token.anywhere = ts.map Token.anywhere) :
    parseTokens keywords rule text' us = .ok x ↔ parseTokens keywords rule text ts = .ok x := by
  refine parseTokens_indistinct (fun name => Rule.uses_true name.rule) (Rule.uses_true _) ?_
  rw [← List.forall₂_eq_eq_eq, List.forall₂_map_left_iff, List.forall₂_map_right_iff] at same
  refine same.flip.imp fun t u same terminal _ => ?_
  have anywhere (t : Token) : terminal.accept keywords t.anywhere = terminal.accept keywords t := by
    cases terminal <;> rfl
  rw [← anywhere u, same, anywhere]

/-- The tokens of lexemes are parsed as the value that the rule takes them for. -/
theorem parseTokens_of_takes {sql : String} {ls : List Lexeme} (takes : rule.Takes calls 0 0 ls [] x) :
    parseTokens Keywords.mysql rule sql (tokensOf ls) = .ok x := by
  refine parseTokens_iff_read.2 ⟨⟨0 + ls.length, [], 0⟩, ?_, .inl rfl⟩
  rw [← List.append_nil (tokensOf ls)]
  exact takes

/-- A layout is parsed as the value that the rule takes its lexemes for. -/
theorem parse_write {layout : Layout} (spaced : layout.Spaced)
    (writable : ∀ l ∈ layout.lexemes, l.Writable) (tame : Tame layout.lexemes)
    (takes : rule.Takes calls 0 0 layout.lexemes [] x) :
    parse Keywords.mysql rule layout.write = .ok x := by
  obtain ⟨ts, cut, same⟩ := tokenize_write spaced writable tame
  have alike : ts.map Token.anywhere = (tokensOf layout.lexemes).map Token.anywhere := by
    simp [← same, Token.anywhere]
  have taken : parseTokens Keywords.mysql rule layout.write (tokensOf layout.lexemes) = .ok x :=
    parseTokens_of_takes takes
  rw [parse, cut, Except.bind]
  exact (parseTokens_anywhere alike).2 taken

theorem parse_write_of_readsBack {E : Edges} {t : Written} {layout : Layout}
    (back : rule.ReadsBack calls 0 E x t) (spaced : layout.Spaced)
    (same : t.lexemes = layout.lexemes) (good : t.Good) :
    parse Keywords.mysql rule layout.write = .ok x := by
  have takes := back.takes good 0 [] (Avoids.nil _)
  have writable := back.sound.writable good
  have tame := back.sound.2
  rw [same] at takes writable tame
  exact parse_write spaced writable tame takes

end TableDdl.Parser
