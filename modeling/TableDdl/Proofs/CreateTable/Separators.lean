import TableDdl.Proofs.TableOption.Clauses
import TableDdl.Statement

/-!
# Separators between table options

Whether a comma stands before a table option, and an equals sign between its key and its value,
does not matter. Main statement: a table definition that is accepted stays accepted, with an equal
tree, when any of these separators are left out or put in.
-/
namespace TableDdl

open Grammar

variable {c next : Cursor} {ts : List Token}

/-- A table definition up to the end of its columns and keys. -/
def Grammar.tableHead : DdlRule (List TableOption → Option Partitioning → CreateTable) :=
  CreateTable.mk <$> (literal "CREATE" *> (literal "TEMPORARY").flag)
    <*> (literal "TABLE" *> (literal "IF" *> literal "NOT" *> literal "EXISTS").flag)
    <*> tableName
    <*> parenthesized (commaList0 definition)

/-- The partitioning at the end of a table definition. -/
def Grammar.tablePartitions : DdlRule (Option Partitioning) :=
  (literal "PARTITION" *> literal "BY" *> partitioning).optional

theorem createTable_eq : createTable = tableHead <*> tableOptions <*> tablePartitions := rfl

theorem createTable_matched_iff {calls : Nat} {t : CreateTable} :
    createTable.read calls c = .matched t next ↔ ∃ head os partitions one two,
      tableHead.read calls c = .matched head one ∧ tableOptions.read calls one = .matched os two ∧
        tablePartitions.read calls two = .matched partitions next ∧ head os partitions = t := by
  rw [createTable_eq, Rule.seq_matched_iff]
  simp only [Rule.seq_matched_iff]
  constructor
  · rintro ⟨_, partitions, two, ⟨head, os, one, first, second, rfl⟩, third, same⟩
    exact ⟨head, os, partitions, one, two, first, second, third, same⟩
  · rintro ⟨head, os, partitions, one, two, first, second, third, same⟩
    exact ⟨head os, partitions, two, ⟨head, os, one, first, second, rfl⟩, third, same⟩

theorem options_tableHead :
    tableHead.Yields fun head => ∀ os partitions, (head os partitions).options = os :=
  .seq (.seq (.seq (.map fun _ _ _ _ _ _ => rfl)))

/-- What ends the options of an accepted definition is no storage of a tablespace. -/
theorem unstored_of_tablePartitions {calls : Nat} {partitions : Option Partitioning}
    (read : tablePartitions.read calls c = .matched partitions next)
    (ends : next.rest = [] ∨ ∃ t, next.rest = [t] ∧ t.spells ";" = true) : Unstored c.rest := by
  have differs {word : String} {t : Token} (spells : t.spells word = true)
      (other : Text.sameWord word "STORAGE" = false) : t.spells "STORAGE" = false := by
    cases storage : t.spells "STORAGE" with
    | false => rfl
    | true => rw [Token.sameWord_of_spells spells storage] at other; cases other
  rcases Rule.optional_matched_iff.1 read with ⟨_, -, given⟩ | ⟨-, rfl, -⟩
  · obtain ⟨_, _, words, -⟩ := Rule.seqRight_matched_iff.1 given
    obtain ⟨_, _, word, -⟩ := Rule.seqRight_matched_iff.1 words
    obtain ⟨t, front, spells, -⟩ := literal_matched_iff.1 word
    simpa [Unstored, front] using differs spells (by decide)
  · rcases ends with none | ⟨t, front, spells⟩
    · simp [Unstored, none]
    · simpa [Unstored, front] using differs spells (by decide)

/-- What is read of the head of a definition does not depend on what follows. -/
theorem tableHead_closed {before rest : List Token} (sound : ∀ t ∈ before, t.Sound Keywords.mysql)
    {head : List TableOption → Option Partitioning → CreateTable}
    (read : tableHead.read Parser.calls (.start (before ++ rest)) =
      .matched head ⟨before.length, rest, 0⟩) (rest' : List Token) :
    tableHead.read Parser.calls (.start (before ++ rest')) =
      .matched head ⟨before.length, rest', 0⟩ := by
  have shuns : (CreateTable.mk <$> (literal "CREATE" *> (literal "TEMPORARY").flag)
      <*> (literal "TABLE" *> (literal "IF" *> literal "NOT" *> literal "EXISTS").flag)
      <*> tableName : DdlRule (List Definition → _)).shuns Terminal.closes = true := by
    decide
  have shuns' : (commaList0 definition).shuns Terminal.closes = true := by decide
  have here := Rule.seq_parenthesized_closed (p := 0) shuns shuns' sound
    (by rw [Nat.zero_add]; exact read) rest'
  rwa [Nat.zero_add] at here

theorem Perhaps.sound {symbol : String} {ts : List Token} (perhaps : Perhaps symbol ts)
    (single : ∃ c ∈ Scan.singleOperators, symbol.toList = [c]) :
    ∀ t ∈ ts, t.Sound Keywords.mysql := by
  intro t ht
  rcases perhaps with rfl | ⟨u, rfl, kind, text⟩
  · cases ht
  · obtain rfl := List.mem_singleton.1 ht
    rw [Token.Sound, kind, text]
    exact .inr single

namespace OptionClause

variable {clauses others : List OptionClause} {os : List TableOption}

theorem spells_of_reseparated (made : List.Forall₂ Spells clauses os)
    (same : List.Forall₂ Reseparated clauses others) : List.Forall₂ Spells others os := by
  induction made generalizing others with
  | nil =>
    cases same
    exact .nil
  | cons spells _ ih =>
    cases same with
    | cons first rest => exact .cons (first.spells spells) (ih rest)

theorem Reseparated.sound {clause other : OptionClause} (h : clause.Reseparated other)
    (sound : ∀ t ∈ clause.tokens, t.Sound Keywords.mysql) :
    ∀ t ∈ other.tokens, t.Sound Keywords.mysql := by
  intro t ht
  simp only [tokens, List.mem_append, h.key, h.value] at sound ht
  rcases ht with ((comma | key) | equals) | value
  · exact h.comma.sound (by decide) t comma
  · exact sound t (.inl (.inl (.inr key)))
  · exact h.equals.sound (by decide) t equals
  · exact sound t (.inr value)

theorem sound_of_reseparated (same : List.Forall₂ Reseparated clauses others)
    (sound : ∀ t ∈ clauses.flatMap tokens, t.Sound Keywords.mysql) :
    ∀ t ∈ others.flatMap tokens, t.Sound Keywords.mysql := by
  induction same with
  | nil => exact sound
  | cons first _ ih =>
    simp only [List.flatMap_cons, List.mem_append] at sound ⊢
    rintro t (ht | ht)
    · exact first.sound (fun u hu => sound u (.inl hu)) t ht
    · exact ih (fun u hu => sound u (.inr hu)) t ht

end OptionClause

/-- A head, clauses and what ends the options are read as a table definition. -/
theorem createTable_of_clauses {before after rest : List Token} {clauses : List OptionClause}
    {head : List TableOption → Option Partitioning → CreateTable} {os : List TableOption}
    {partitions : Option Partitioning} (next : Cursor)
    (sound : ∀ t ∈ before ++ (clauses.flatMap OptionClause.tokens ++ after),
      t.Sound Keywords.mysql)
    (first : tableHead.read Parser.calls (.start (before ++ rest)) =
      .matched head ⟨before.length, rest, 0⟩)
    (made : List.Forall₂ OptionClause.Spells clauses os) (free : Unstored after)
    (stop : tableOptionRound.FailsEarly Parser.calls ⟨0, after, 0⟩)
    (third : ∀ p, ∃ q, tablePartitions.read Parser.calls ⟨p, after, 0⟩ =
      .matched partitions ⟨q, next.rest, 0⟩) :
    ∃ q, createTable.read Parser.calls
        (.start (before ++ (clauses.flatMap OptionClause.tokens ++ after))) =
      .matched (head os partitions) ⟨q, next.rest, 0⟩ := by
  obtain ⟨sound, sound'⟩ := List.forall_mem_append.1 sound
  have one := tableHead_closed sound first (clauses.flatMap OptionClause.tokens ++ after)
  have two : tableOptions.read Parser.calls _ = _ :=
    Rule.many_of_rounds (rounds_of_clauses made sound' free stop before.length)
  obtain ⟨q, three⟩ := third (before.length + (clauses.flatMap OptionClause.tokens).length)
  exact ⟨q, createTable_matched_iff.2 ⟨head, os, partitions, _, _, one, two, three, rfl⟩⟩

/-- The options of a table definition are read where its head ends, one clause for each, and the
last tokens are what is left then. -/
structure CreateTable.OptionsAt (ts : List Token) (t : CreateTable) (before : List Token)
    (clauses : List OptionClause) (after : List Token) : Prop where
  whole : ts = before ++ (clauses.flatMap OptionClause.tokens ++ after)
  head : ∃ head, tableHead.read Parser.calls (.start ts) =
    .matched head ⟨before.length, clauses.flatMap OptionClause.tokens ++ after, 0⟩
  options : ∃ next, tableOptions.read Parser.calls
    ⟨before.length, clauses.flatMap OptionClause.tokens ++ after, 0⟩ = .matched t.options next ∧
      next.rest = after
  spelled : List.Forall₂ OptionClause.Spells clauses t.options

/-- An accepted table definition has a clause for each of its options. Whichever separators there
are in these clauses, the definition is accepted, and its tree is the same. -/
theorem CreateTable.parseTokens_reseparated {sql : String} {t : CreateTable}
    (sound : ∀ token ∈ ts, token.Sound Keywords.mysql)
    (accepted : Parser.parseTokens .mysql createTable sql ts = .ok t) :
    (∃ before clauses after, OptionsAt ts t before clauses after) ∧
      ∀ before clauses after, OptionsAt ts t before clauses after →
        ∀ sql' others, List.Forall₂ OptionClause.Reseparated clauses others →
          let ts' := before ++ (others.flatMap OptionClause.tokens ++ after)
          Parser.parseTokens .mysql createTable sql' ts' = .ok t ∧
            Parser.parseTokens .mysql statement sql' ts' = .ok (.createTable t) := by
  obtain ⟨last, read, ends⟩ := Parser.parseTokens_iff_read.1 accepted
  obtain ⟨head, os, partitions, one, two, first, second, third, rfl⟩ :=
    createTable_matched_iff.1 read
  have same : (head os partitions).options = os := options_tableHead _ _ _ _ first os partitions
  obtain ⟨-, -, -, deep⟩ := Rule.reaches_of_read first
  obtain ⟨-, -, -, deep'⟩ := Rule.reaches_of_read second
  have deep' : two.depth = 0 := deep'.trans deep
  have rounds := (Rule.many_matched_iff (Rule.consumes_of_some (by decide))).1 second
  constructor
  · obtain ⟨before, whole, place, -⟩ := Rule.reaches_of_read first
    have sound' : ∀ t ∈ one.rest, t.Sound Keywords.mysql := fun t ht =>
      sound t (by rw [show ts = _ from whole]; exact List.mem_append_right _ ht)
    obtain ⟨clauses, made, rest⟩ := clauses_of_rounds rounds sound' deep
    have here : one = ⟨before.length, clauses.flatMap OptionClause.tokens ++ two.rest, 0⟩ := by
      obtain ⟨pos, tokens, depth⟩ := one
      simp_all [Cursor.start]
    subst here
    exact ⟨before, clauses, two.rest, whole, ⟨head, first⟩, ⟨two, by rw [same, second], rfl⟩,
      same.symm ▸ made⟩
  -- Head and options are read in one way only, so the clauses are those of this reading.
  · rintro before clauses after ⟨rfl, ⟨head', first'⟩, ⟨two', second', rfl⟩, made⟩ sql' others alike
    obtain ⟨rfl, rfl⟩ := Outcome.matched.inj (first.symm.trans first')
    obtain ⟨-, rfl⟩ := Outcome.matched.inj (second.symm.trans second')
    have free := unstored_of_tablePartitions third ends
    have stop := rounds.failsEarly.from 0
    rw [deep'] at stop
    rw [same] at made
    obtain ⟨front, later⟩ := List.forall_mem_append.1 sound
    obtain ⟨inner, behind⟩ := List.forall_mem_append.1 later
    have sound' := List.forall_mem_append.2 ⟨front, List.forall_mem_append.2
      ⟨OptionClause.sound_of_reseparated alike inner, behind⟩⟩
    obtain ⟨q, again⟩ := createTable_of_clauses last sound' first
      (OptionClause.spells_of_reseparated made alike) free stop fun p => by
        obtain ⟨-, -, -, deep⟩ := Rule.reaches_of_read third
        have moved := Rule.read_from third p
        rw [deep, deep'] at moved
        exact ⟨_, moved⟩
    exact ⟨Parser.parseTokens_iff_read.2 ⟨_, again, ends⟩, Parser.parseTokens_iff_read.2
      ⟨_, Rule.either_matched_iff.2 (.inl (Rule.map_matched_iff.2 ⟨_, again, rfl⟩)), ends⟩⟩

/-- A comma in front of the first option, and one equals sign of two. -/
theorem CreateTable.parseTokens_reseparated_engine :
    let t : CreateTable :=
      ⟨false, false, ⟨none, "t"⟩, [], [.engine "x", .collate "y"], none⟩
    ∃ ts, tokenize .mysql "CREATE TABLE t () , ENGINE = x COLLATE y" = .ok ts ∧
      (∃ before clauses after, OptionsAt ts t before clauses after) ∧
      ∀ before clauses after, OptionsAt ts t before clauses after →
        ∀ sql' others, List.Forall₂ OptionClause.Reseparated clauses others →
          let ts' := before ++ (others.flatMap OptionClause.tokens ++ after)
          Parser.parseTokens .mysql createTable sql' ts' = .ok t ∧
            Parser.parseTokens .mysql statement sql' ts' = .ok (.createTable t) := by
  intro t
  have parsed : CreateTable.parse .mysql "CREATE TABLE t () , ENGINE = x COLLATE y" = .ok t :=
    Parser.eq_ok_of_toOption (by decide +kernel)
  obtain ⟨ts, mid, cut, read, ends⟩ := Parser.read_of_parse parsed
  have accepted : Parser.parseTokens .mysql createTable "" ts = .ok t :=
    Parser.parseTokens_iff_read.2 ⟨mid, read, ends⟩
  exact ⟨ts, cut, CreateTable.parseTokens_reseparated (scanned_of_tokenize cut).1 accepted⟩

end TableDdl
