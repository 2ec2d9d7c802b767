import Mathlib.Data.List.Sort
import TableDdl.Proofs.Grammar.Locality
import TableDdl.Proofs.Grammar.Terminals
import TableDdl.Proofs.RoundTrip.Parsing

/-!
# Larger keyword tables

A table with more words accepts less. A word that is new and reserved is taken by no terminal of
the rules, so a text that is accepted has none; and up to such words the tables cut the text into
the same tokens. Where no new word is reserved, the two parsers are the same.
-/
namespace TableDdl

open Text

variable {keywords : Keywords}

namespace Keywords

theorem isKeyword_iff {word : String} :
    keywords.isKeyword word = true ↔ upper word ∈ keywords.words := by
  simp [isKeyword]

theorem isReserved_iff {word : String} : keywords.isReserved word = true ↔
    upper word ∈ keywords.words ∧ upper word ∈ Keyword.reservedWords := by
  simp [isReserved, mem_reserved]

theorem insertWord_filter {word : String} {ws : List String} (ascending : ws.Pairwise (· < ·))
    (reserved : word ∈ Keyword.reservedWords) :
    insertWord word (ws.filter Keyword.reservedWords.contains) =
      (insertWord word ws).filter Keyword.reservedWords.contains := by
  refine List.Pairwise.eq_of_mem_iff (pairwise_insertWord (ascending.filter _))
    ((pairwise_insertWord ascending).filter _) fun x => ?_
  simp only [mem_insertWord, List.mem_filter, List.contains_iff_mem]
  grind

/-- A reserved word joins the words of a table and its reserved words, with no need to go through
all of them. -/
theorem insert_of_reserved (table : Keywords) {word : String}
    (reserved : word ∈ Keyword.reservedWords) :
    table.insert word = ⟨insertWord word table.words, pairwise_insertWord table.ascending,
      insertWord word table.reserved,
      table.reserved_eq ▸ insertWord_filter table.ascending reserved⟩ := by
  simp only [insert, build, table.reserved_eq, insertWord_filter table.ascending reserved]

/-- The words of an extended table are the old ones and the new ones as they are kept. -/
theorem mem_words_extend {table : Keywords} {words : List String}
    (extended : table.extend words = .ok keywords) {x : String} :
    x ∈ keywords.words ↔ x ∈ table.words ∨ ∃ word ∈ words, normalize word = .ok x := by
  have kept_iff : ∀ (words kept : List String), words.mapM normalize = .ok kept →
      ∀ x, x ∈ kept ↔ ∃ word ∈ words, normalize word = .ok x := by
    intro words
    induction words with
    | nil =>
      rintro kept mapped x
      obtain rfl : [] = kept := by simpa [pure, Except.pure] using mapped
      simp
    | cons word words ih =>
      intro kept mapped x
      rw [List.mapM_cons] at mapped
      cases first : normalize word with
      | error e => simp [first, bind, Except.bind] at mapped
      | ok y =>
        cases later : words.mapM normalize with
        | error e => simp [first, later, bind, Except.bind] at mapped
        | ok ys =>
          obtain rfl : y :: ys = kept := by
            simpa [first, later, bind, Except.bind, pure, Except.pure] using mapped
          simp [first, ih ys later, eq_comm]
  cases mapped : words.mapM normalize with
  | error e => simp [extend, mapped, Except.map] at extended
  | ok kept =>
    obtain rfl : kept.foldl insert table = keywords := by
      simpa [extend, mapped, Except.map] using extended
    rw [mem_words_foldl_insert, kept_iff words kept mapped]

/-- All keywords of the default table are keywords of the table. -/
def IsLarger (keywords : Keywords) : Prop :=
  ∀ word, mysql.isKeyword word = true → keywords.isKeyword word = true

theorem isLarger_of_extend {words : List String}
    (extended : mysql.extend words = .ok keywords) : keywords.IsLarger :=
  fun _ h => isKeyword_iff.2
    ((mem_words_extend extended).2 (.inl (isKeyword_iff.1 h)))

end Keywords

/-- A literal is an operator or a word of the default table. -/
def Terminal.isKnown : Terminal → Bool
  | .literal text => Keywords.mysql.isKeyword text || !startsWord text
  | _ => true

/-- One evaluation for all rules, so that each word is looked up once. -/
theorem rules_isKnown :
    (Nonterminal.expression.rule.uses Terminal.isKnown &&
      Nonterminal.condition.rule.uses Terminal.isKnown &&
      Nonterminal.term.rule.uses Terminal.isKnown &&
      Nonterminal.select.rule.uses Terminal.isKnown &&
      EntryPoint.statement.rule.statement.uses Terminal.isKnown &&
      EntryPoint.createTable.rule.statement.uses Terminal.isKnown &&
      EntryPoint.alterTable.rule.statement.uses Terminal.isKnown &&
      EntryPoint.expression.rule.statement.uses Terminal.isKnown) = true := by
  decide +kernel

theorem Nonterminal.uses_isKnown {α : Type} (name : Nonterminal α) :
    name.rule.uses Terminal.isKnown = true := by
  have known := rules_isKnown
  simp only [Bool.and_eq_true] at known
  obtain ⟨⟨⟨⟨⟨⟨⟨expression, condition⟩, term⟩, select⟩, -⟩, -⟩, -⟩, -⟩ := known
  cases name with
  | expression => exact expression
  | condition => exact condition
  | term => exact term
  | select => exact select

theorem EntryPoint.uses_isKnown {α : Type} (entry : EntryPoint α) :
    entry.rule.statement.uses Terminal.isKnown = true := by
  have known := rules_isKnown
  simp only [Bool.and_eq_true] at known
  obtain ⟨⟨⟨⟨-, statement⟩, createTable⟩, alterTable⟩, expression⟩ := known
  cases entry with
  | statement => exact statement
  | createTable => exact createTable
  | alterTable => exact alterTable
  | expression => exact expression

/-- A word that a terminal of the rules takes is reserved in the larger table only if it is in the
default one. -/
theorem Token.reservedAlike_of_accepted (larger : keywords.IsLarger) {t : Token}
    (sound : t.Sound keywords) (accepted : t.Accepted keywords Terminal.isKnown) :
    t.ReservedAlike keywords .mysql := by
  intro word
  obtain ⟨terminal, x, known, accepted⟩ := accepted
  obtain ⟨isWord, -⟩ := isWord_cases sound word
  rw [Bool.eq_iff_iff, Keywords.isReserved_iff, Keywords.isReserved_iff]
  constructor
  · rintro ⟨mem, reserved⟩
    exact ⟨Keywords.isKeyword_iff.1 (larger _ (Keywords.isKeyword_iff.2 mem)), reserved⟩
  rintro ⟨mem, reserved⟩
  have free : keywords.isReserved t.text = true := Keywords.isReserved_iff.2 ⟨mem, reserved⟩
  refine ⟨Keywords.isKeyword_iff.1 ?_, reserved⟩
  -- The words of literals are in the default table, and a name is no reserved word of this one.
  cases terminal with
  | literal text =>
    have same : sameWord t.text text = true := by
      simp only [Terminal.accept, spells, word, if_true, Option.ite_none_right_eq_some] at accepted
      exact accepted.1
    rw [isKeyword_congr same]
    cases odd : startsWord text with
    | false =>
      rw [sameWord_eq_false isWord odd] at same
      cases same
    | true => simpa [Terminal.isKnown, odd] using known
  | identifier => simp [accept_identifier_of_isWord sound word, free] at accepted
  | string =>
    obtain ⟨kind, -⟩ : t.kind = .string ∧ _ := by simpa [Terminal.accept] using accepted
    simp [Token.isWord, kind] at word
  | number =>
    obtain ⟨kind, -⟩ : t.kind = .number ∧ _ := by simpa [Terminal.accept] using accepted
    simp [Token.isWord, kind] at word

/-- The tables agree on a word unless it is new and reserved. -/
theorem Token.reservedAlike_iff (larger : keywords.IsLarger) {t : Token} :
    t.ReservedAlike .mysql keywords ↔ (t.isWord = true → keywords.isReserved t.text = true →
      Keywords.mysql.isKeyword t.text = true) := by
  refine forall_congr' fun _ => ?_
  rw [Bool.eq_iff_iff, Keywords.isReserved_iff, Keywords.isReserved_iff]
  constructor
  · rintro same reserved
    exact Keywords.isKeyword_iff.2 (same.1 reserved).1
  · rintro known
    constructor
    · rintro reserved
      exact ⟨Keywords.isKeyword_iff.1 (known reserved), reserved.2⟩
    · rintro ⟨mem, reserved⟩
      exact ⟨Keywords.isKeyword_iff.1 (larger _ (Keywords.isKeyword_iff.2 mem)), reserved⟩

/-- A parse that succeeds comes to the end of the tokens. -/
theorem Engine.rest_of_outcome {σ α : Type} {e : Engine σ} {rule : DdlRule α} {ts : List Token}
    {notes notes' : σ} {x : α} {next : Cursor}
    (run : e.outcome rule ts notes = (.matched x next, notes')) : next.rest = [] := by
  let body : DdlRule α := rule <* (Grammar.literal ";").optional
  let calls : Nat := Nonterminal.callDepth e.maxDepth
  have answer : e.answer Nonterminal.rule calls (.map Prod.fst (.both body .atEnd)) (.start ts) =
      .matched x next := by
    rw [← run_fst e Nonterminal.rule calls _ _ notes]
    exact congrArg Prod.fst run
  rw [Engine.answer, run_map, fst_map, run_both, fst_both] at answer
  obtain ⟨⟨_, _⟩, both, -⟩ := Outcome.map_eq_matched_iff.1 answer
  cases first : (e.silent.run Nonterminal.rule calls body (.start ts) ()).1 with
  | matched y mid =>
    rw [first, Outcome.handle_matched] at both
    obtain ⟨_, last, -⟩ := Outcome.map_eq_matched_iff.1 both
    rw [run_atEnd, atEnd] at last
    split at last
    · rename_i ended
      obtain ⟨-, rfl⟩ := Outcome.matched.inj last
      simpa using ended
    · simp [fail] at last
  | failed f => simp [first] at both
  | diverged => simp [first] at both

namespace Parser

variable {α : Type} {rule : DdlRule α} {text : String} {ts : List Token}

/-- Where the tables agree on the reserved words of the text, the parsers agree. -/
theorem parseTokens_under {keywords other : Keywords} (sound : ∀ t ∈ ts, t.Sound keywords)
    (same : ∀ t ∈ ts, t.ReservedAlike keywords other) :
    parseTokens other rule text (ts.map (Token.under other)) = parseTokens keywords rule text ts := by
  let R (t t' : Token) : Prop := t.Sound keywords ∧ t.ReservedAlike keywords other ∧ t' = t.under other
  have start : (Cursor.start ts).Paired R (.start (ts.map (Token.under other))) := by
    refine ⟨rfl, rfl, ?_⟩
    change List.Forall₂ R ts (ts.map (Token.under other))
    rw [List.forall₂_map_right_iff, List.forall₂_same]
    exact fun t ht => ⟨sound t ht, same t ht, rfl⟩
  have accepts : ∀ t t', R t t' → ∀ terminal : Terminal,
      terminal.accept other t' = terminal.accept (Engine.standard keywords).keywords t := by
    rintro t _ ⟨sound, same, rfl⟩ terminal
    exact Token.accept_under sound same terminal
  have runs : Engine.MirrorsAnswer R ((Engine.standard keywords).outcome rule ts none)
      ((Engine.standard other).outcome rule (ts.map (Token.under other)) none) :=
    Engine.mirrors_run accepts _ _ _ start
  -- An error shows the text of a token, and that is the same under every tag.
  have found (f : Failure) : unexpected text (ts.map (Token.under other)) f = unexpected text ts f := by
    simp only [unexpected, foundAt, List.getElem?_map]
    cases ts[f.pos]? <;> rfl
  obtain ⟨outcome, notes⟩ := runs
  rcases first : (Engine.standard keywords).outcome rule ts none with ⟨o, furthest⟩
  rcases second : (Engine.standard other).outcome rule (ts.map (Token.under other)) none with
    ⟨o', furthest'⟩
  rw [first, second] at outcome notes
  obtain rfl : furthest' = furthest := notes
  simp only [parseTokens, first, second]
  cases outcome with
  | matched x _ => rfl
  | failed f => simp only [found]
  | diverged => simp only [found]

/-- A parse that succeeds takes all tokens. -/
theorem accepted_of_parseTokens {kind : Terminal → Bool}
    (named : ∀ {β : Type} (name : Nonterminal β), name.rule.uses kind = true)
    (own : rule.statement.uses kind = true) {tree : α}
    (parsed : parseTokens keywords rule text ts = .ok tree) :
    ∀ t ∈ ts, t.Accepted keywords kind := by
  unfold parseTokens at parsed
  split at parsed
  · rename_i next notes run
    obtain ⟨taken, whole, accepted⟩ :=
      Engine.accepted_of_run Nonterminal.rule named own (congrArg Prod.fst run)
    have ended : next.rest = [] := Engine.rest_of_outcome run
    rw [ended, List.append_nil] at whole
    have whole : ts = taken := whole
    rw [whole]
    exact accepted
  · simp at parsed
  · simp at parsed

end Parser

namespace EntryPoint

variable {α : Type} {entry : EntryPoint α} {text : String} {tree : α}

/-- In a text that a larger table accepts, no word is new and reserved. -/
theorem reservedAlike_of_parse (larger : keywords.IsLarger)
    (parsed : Parser.parse keywords entry.rule text = .ok tree) :
    ∃ ts, tokenize keywords text = .ok ts ∧
      Parser.parseTokens keywords entry.rule text ts = .ok tree ∧
      ∀ t ∈ ts, t.Sound keywords ∧ t.ReservedAlike keywords .mysql := by
  cases cut : tokenize keywords text with
  | error e => simp [Parser.parse, cut, Except.bind] at parsed
  | ok ts =>
    have parsed : Parser.parseTokens keywords entry.rule text ts = .ok tree := by
      simpa [Parser.parse, cut, Except.bind] using parsed
    have sound := (scanned_of_tokenize cut).1
    have accepted :=
      Parser.accepted_of_parseTokens Nonterminal.uses_isKnown entry.uses_isKnown parsed
    exact ⟨ts, rfl, parsed, fun t ht =>
      ⟨sound t ht, Token.reservedAlike_of_accepted larger (sound t ht) (accepted t ht)⟩⟩

theorem tokenize_mysql_of_parse (larger : keywords.IsLarger)
    (parsed : Parser.parse keywords entry.rule text = .ok tree) :
    ∃ ts, tokenize keywords text = .ok ts ∧
      (∀ t ∈ ts, t.Sound keywords ∧ t.ReservedAlike keywords .mysql) ∧
      tokenize .mysql text = .ok (ts.map (Token.under .mysql)) ∧
      Parser.parse .mysql entry.rule text = .ok tree := by
  obtain ⟨ts, cut, parsed, alike⟩ := reservedAlike_of_parse larger parsed
  have again : tokenize .mysql text = .ok (ts.map (Token.under .mysql)) := by
    rw [tokenize_under (.inr ⟨ts, cut, fun t ht =>
      Token.endsAlike_of_reservedAlike (alike t ht).1 (alike t ht).2⟩), cut, Except.map]
  refine ⟨ts, cut, alike, again, ?_⟩
  rw [Parser.parse, again, Except.bind, Parser.parseTokens_under (fun t ht => (alike t ht).1)
    fun t ht => (alike t ht).2, parsed]

/-- A text of the language stays one where the larger table reserves none of its names. -/
theorem parse_larger_iff {ts : List Token} (larger : keywords.IsLarger)
    (cut : tokenize .mysql text = .ok ts) (parsed : Parser.parse .mysql entry.rule text = .ok tree) :
    Parser.parse keywords entry.rule text = .ok tree ↔
      ∀ t ∈ ts, t.ReservedAlike .mysql keywords := by
  have sound := (scanned_of_tokenize cut).1
  constructor
  · intro again t ht word
    obtain ⟨us, -, alike, cut', -⟩ := tokenize_mysql_of_parse larger again
    obtain rfl : us.map (Token.under .mysql) = ts := by simpa [cut'] using cut
    obtain ⟨u, hu, rfl⟩ := List.mem_map.1 ht
    obtain ⟨soundU, alikeU⟩ := alike u hu
    rw [Token.isWord_under soundU] at word
    exact (alikeU word).symm
  · intro alike
    have again : tokenize keywords text = .ok (ts.map (Token.under keywords)) := by
      rw [tokenize_under (.inr ⟨ts, cut, fun t ht =>
        Token.endsAlike_of_reservedAlike (sound t ht) (alike t ht)⟩), cut, Except.map]
    have parsed : Parser.parseTokens .mysql entry.rule text ts = .ok tree := by
      simpa [Parser.parse, cut, Except.bind] using parsed
    rw [Parser.parse, again, Except.bind, Parser.parseTokens_under sound alike, parsed]

/-- Extending the default table only restricts the language: what is accepted is read as the same
tree with the default table. If no new word is reserved, the parsers agree on every text, errors
included. -/
theorem parse_of_extend {words : List String}
    (extended : Keywords.mysql.extend words = .ok keywords) :
    (∀ {α : Type} (entry : EntryPoint α) (text : String) (tree : α),
      Parser.parse keywords entry.rule text = .ok tree →
        Parser.parse .mysql entry.rule text = .ok tree) ∧
    ((∀ word ∈ words, ∀ kept, Keywords.normalize word = .ok kept →
        kept ∈ Keyword.reservedWords → kept ∈ Keywords.mysql.words) →
      ∀ {α : Type} (entry : EntryPoint α) (text : String),
        Parser.parse keywords entry.rule text = Parser.parse .mysql entry.rule text) := by
  have words_iff := @Keywords.mem_words_extend keywords Keywords.mysql words extended
  constructor
  · intro α entry text tree parsed
    obtain ⟨_, -, -, -, again⟩ :=
      tokenize_mysql_of_parse (Keywords.isLarger_of_extend extended) parsed
    exact again
  · intro harmless α entry text
    -- An added word is not one that can be reserved, or the default table has it.
    have same (t : Token) : t.ReservedAlike keywords .mysql := by
      intro _
      rw [Bool.eq_iff_iff, Keywords.isReserved_iff, Keywords.isReserved_iff, words_iff]
      constructor
      · rintro ⟨mem, reserved⟩
        exact ⟨.inl mem, reserved⟩
      · rintro ⟨mem | ⟨word, hword, kept⟩, reserved⟩
        · exact ⟨mem, reserved⟩
        · exact ⟨harmless word hword _ kept reserved, reserved⟩
    have again : tokenize .mysql text =
        (tokenize keywords text).map (List.map (Token.under .mysql)) :=
      tokenize_under (.inl fun t sound => Token.endsAlike_of_reservedAlike sound (same t))
    simp only [Parser.parse, again]
    cases cut : tokenize keywords text with
    | error e => simp only [Except.map, Except.bind]
    | ok ts =>
      have sound := (scanned_of_tokenize cut).1
      simp only [Except.map, Except.bind, Parser.parseTokens_under sound fun t _ => same t]

end EntryPoint

/-- With `ROW` reserved, the quoted name is read as without; and `PURPLE`, which MySQL does not
reserve, changes no answer. -/
theorem EntryPoint.parse_of_extend_row :
    let tree : Expression :=
      .anyOf [.allOf [.test (.concat [.sum (.product (.name ["row"]) []) []]) none]]
    Parser.parse .mysql EntryPoint.expression.rule "`row`" = .ok tree ∧
      Parser.parse (Keywords.mysql.insert "PURPLE") EntryPoint.expression.rule "purple 1" =
        Parser.parse .mysql EntryPoint.expression.rule "purple 1" := by
  intro tree
  have row : Keywords.mysql.extend ["row"] = .ok (Keywords.mysql.insert "ROW") := rfl
  have purple : Keywords.mysql.extend ["purple"] = .ok (Keywords.mysql.insert "PURPLE") := rfl
  have parsed : Parser.parse (Keywords.mysql.insert "ROW") EntryPoint.expression.rule "`row`" =
      .ok tree := by
    rw [Keywords.insert_of_reserved .mysql (by decide)]
    exact Parser.eq_ok_of_toOption (by decide +kernel)
  have harmless (word : String) (mem : word ∈ ["purple"]) (kept : String)
      (normal : Keywords.normalize word = .ok kept) (reserved : kept ∈ Keyword.reservedWords) :
      kept ∈ Keywords.mysql.words := by
    obtain rfl := List.mem_singleton.1 mem
    obtain rfl : "PURPLE" = kept := Except.ok.inj normal
    exact absurd reserved (by decide +kernel)
  exact ⟨(EntryPoint.parse_of_extend row).1 .expression "`row`" tree parsed,
    (EntryPoint.parse_of_extend purple).2 harmless .expression "purple 1"⟩

end TableDdl
