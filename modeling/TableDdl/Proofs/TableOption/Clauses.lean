import TableDdl.Proofs.Grammar.Shifted
import TableDdl.Proofs.Grammar.Walled
import TableDdl.Proofs.RoundTrip.Parsing
import TableDdl.Proofs.RoundTrip.Peeks
import TableDdl.Proofs.TableOption.Forms

/-!
# Clauses of table options

A clause is the tokens of one table option with the separators in it: a comma in front, and an
equals sign between key and value. What follows a clause does not change how it is read, so a list
of clauses is read as its options whichever of the separators are there.
-/
namespace TableDdl

open Grammar Text

variable {α β : Type} {calls depth : Nat} {c next : Cursor} {o : TableOption}

/-- The next token is not the word that may follow the name of a tablespace. -/
def Unstored (rest : List Token) : Prop := ∀ t ∈ rest.head?, t.spells "STORAGE" = false

namespace Rule

/-- The rule reads what it has read wherever it stands, in front of all other tokens. -/
def Settles (calls depth : Nat) (r : DdlRule α) : Prop :=
  ∀ ⦃p : Nat⦄ ⦃rest : List Token⦄ ⦃x : α⦄ ⦃next : Cursor⦄, (∀ t ∈ rest, t.Sound Keywords.mysql) →
    r.read calls ⟨p, rest, depth⟩ = .matched x next →
    ∃ taken, rest = taken ++ next.rest ∧ next.pos = p + taken.length ∧ next.depth = depth ∧
      ∀ q more, Unstored more →
        r.read calls ⟨q, taken ++ more, depth⟩ = .matched x ⟨q + taken.length, more, depth⟩

/-- The rule looks at one token. -/
def isSingle {N : Type → Type} {α : Type} : Rule N α → Bool
  | .token _ => true
  | .map _ r => r.isSingle
  | .convert _ r => r.isSingle
  | .either a b => a.isSingle && b.isSingle
  | _ => false

theorem exists_peek {r : DdlRule α} (single : r.isSingle = true) :
    ∃ peek, ∀ calls, r.Peeks calls peek := by
  induction r with
  | token t => exact ⟨_, fun _ => .token t⟩
  | map f r ih =>
    obtain ⟨peek, peeks⟩ := ih single
    exact ⟨_, fun calls => (peeks calls).map f⟩
  | convert f r ih =>
    obtain ⟨peek, peeks⟩ := ih single
    exact ⟨_, fun calls => (peeks calls).convert f⟩
  | either a b iha ihb =>
    obtain ⟨first, second⟩ := Bool.and_eq_true_iff.1 single
    obtain ⟨peek, peeks⟩ := iha first
    obtain ⟨peek', peeks'⟩ := ihb second
    exact ⟨_, fun calls => (peeks calls).either (peeks' calls)⟩
  | _ => cases single

theorem Settles.single {r : DdlRule α} (single : r.isSingle = true) : r.Settles calls depth := by
  obtain ⟨peek, peeks⟩ := exists_peek single
  intro p rest x next _ read
  obtain ⟨t, rest', front, accepted, rfl⟩ := (peeks calls).matched_iff.1 read
  exact ⟨[t], front, rfl, rfl, fun q more _ =>
    (peeks calls).matched_iff.2 ⟨t, more, rfl, accepted, rfl⟩⟩

theorem Settles.map {r : DdlRule α} (f : α → β) (h : r.Settles calls depth) :
    (f <$> r).Settles calls depth := by
  intro p rest y next sound read
  obtain ⟨x, inner, rfl⟩ := map_matched_iff.1 read
  obtain ⟨taken, whole, pos, deep, again⟩ := h sound inner
  exact ⟨taken, whole, pos, deep, fun q more free =>
    map_matched_iff.2 ⟨x, again q more free, rfl⟩⟩

theorem Settles.parenthesized {r : DdlRule α} (shuns : r.shuns Terminal.closes = true) :
    (parenthesized r).Settles calls depth := by
  rintro p rest x ⟨pos, after, deep⟩ sound read
  obtain ⟨taken, whole, place, same⟩ := reaches_of_read read
  obtain rfl : rest = taken ++ after := whole
  obtain rfl : pos = p + taken.length := place
  obtain rfl : deep = depth := same
  refine ⟨taken, rfl, rfl, rfl, fun q more _ => ?_⟩
  have here := read_closed (r := literal "(" *> r) shuns
    (fun t ht => sound t (List.mem_append_left _ ht)) read more
  have moved := read_from here q
  rwa [Nat.add_sub_cancel_left] at moved

/-- A value with the storage of a tablespace after it, or without. -/
theorem Settles.stored {r : DdlRule (Option β → α)} {s : DdlRule β} (h : r.isSingle = true)
    (h' : s.isSingle = true) :
    (r <*> (literal "STORAGE" *> s).optional).Settles calls depth := by
  obtain ⟨peek, peeks⟩ := exists_peek h
  obtain ⟨peek', peeks'⟩ := exists_peek h'
  intro p rest x next _ read
  obtain ⟨f, y, mid, first, second, same⟩ := seq_matched_iff.1 read
  obtain ⟨t, rest', rfl, accepted, rfl⟩ := (peeks calls).matched_iff.1 first
  have name (q : Nat) (more : List Token) :
      r.read calls ⟨q, t :: more, depth⟩ = .matched f ⟨q + 1, more, depth⟩ :=
    (peeks calls).matched_iff.2 ⟨t, more, rfl, accepted, rfl⟩
  rcases optional_matched_iff.1 second with ⟨z, rfl, given⟩ | ⟨rfl, rfl, -⟩
  · obtain ⟨_, _, word, medium⟩ := seqRight_matched_iff.1 given
    obtain ⟨u, front, spells, -, pos, deep⟩ := literal_matched_iff.1 word
    obtain ⟨v, rest'', front', accepted', rfl⟩ := (peeks' calls).matched_iff.1 medium
    obtain rfl : rest' = u :: v :: rest'' := front.trans (congrArg _ front')
    refine ⟨[t, u, v], rfl, by rw [pos]; rfl, deep, fun q more _ => seq_matched_iff.2
      ⟨f, some _, ⟨q + 1, u :: v :: more, depth⟩, name q _, ?_, same⟩⟩
    have word' : (literal "STORAGE" : DdlRule String).read calls ⟨q + 1, u :: v :: more, depth⟩ =
        .matched "STORAGE" ⟨q + 1 + 1, v :: more, depth⟩ :=
      literal_matched_iff.2 ⟨u, rfl, spells, rfl, rfl, rfl⟩
    have medium' : s.read calls ⟨q + 1 + 1, v :: more, depth⟩ =
        .matched _ ⟨q + 1 + 1 + 1, more, depth⟩ :=
      (peeks' calls).matched_iff.2 ⟨v, more, rfl, accepted', rfl⟩
    exact optional_matched_iff.2
      (.inl ⟨_, rfl, seqRight_matched_iff.2 ⟨_, _, word', medium'⟩⟩)
  · refine ⟨[t], rfl, rfl, rfl, fun q more free => seq_matched_iff.2
      ⟨f, none, ⟨q + 1, more, depth⟩, name q more, read_optional_of_early ?_, same⟩⟩
    have absent : (literal "STORAGE" : DdlRule String).FailsHere calls ⟨q + 1, more, depth⟩ :=
      literal_failsHere free
    exact (absent.both s).early.map _

end Rule

theorem TableOption.settles_value {form : OptionForm} (mem : form ∈ TableOption.forms) :
    form.value.Settles calls depth := by
  have singles : ((forms.take 26).all fun form => form.value.isSingle) = true := by
    decide
  have split : forms = forms.take 26 ++ forms.drop 26 := by rw [List.take_append_drop]
  rw [split] at mem
  rcases List.mem_append.1 mem with mem | mem
  · exact .single (List.all_eq_true.1 singles form mem)
  · rcases List.mem_cons.1 mem with rfl | mem
    · exact .stored (by decide) (by decide)
    · rcases List.mem_singleton.1 mem with rfl
      have tables : (parenthesized (commaList0 identifier)).Settles calls depth :=
        .parenthesized (by decide)
      exact tables.map TableOption.union

/-- The tokens of one table option, with its separators. -/
structure OptionClause where
  comma : List Token
  key : List Token
  equals : List Token
  value : List Token

namespace OptionClause

def tokens (clause : OptionClause) : List Token :=
  clause.comma ++ clause.key ++ clause.equals ++ clause.value

/-- The tokens are a comma or none, the words of a key, an equals sign or none, and a value which
makes the option. -/
def Spells (clause : OptionClause) (o : TableOption) : Prop :=
  Perhaps "," clause.comma ∧ Perhaps "=" clause.equals ∧
    ∃ form ∈ TableOption.forms, (∃ words ∈ form.keys, Spell words clause.key) ∧
      form.value.read Parser.calls (.start clause.value) =
        .matched o ⟨clause.value.length, [], 0⟩

/-- The same key and value, with any separators. -/
structure Reseparated (clause other : OptionClause) : Prop where
  key : other.key = clause.key
  value : other.value = clause.value
  comma : Perhaps "," other.comma
  equals : Perhaps "=" other.equals

theorem Reseparated.spells {clause other : OptionClause} (h : clause.Reseparated other)
    (spells : clause.Spells o) : other.Spells o := by
  obtain ⟨-, -, form, mem, key, value⟩ := spells
  refine ⟨h.comma, h.equals, form, mem, h.key ▸ key, ?_⟩
  rw [h.value]
  exact value

end OptionClause

/-- One round of the options of a table. -/
def tableOptionRound : DdlRule TableOption := (literal ",").optional *> tableOption

theorem TableOption.heads {form : OptionForm} (mem : form ∈ TableOption.forms)
    {words : List String} (listed : words ∈ form.keys) {key : List Token}
    (spell : Spell words key) : ∃ t rest, key = t :: rest ∧ t.spells "," = false ∧
      t.spells "STORAGE" = false := by
  have others : (forms.all fun form => form.keys.all fun words => words.head?.any fun word =>
      !sameWord word "," && !sameWord word "STORAGE") = true := by
    decide
  have other := List.all_eq_true.1 (List.all_eq_true.1 others form mem) words listed
  cases spell with
  | nil => cases other
  | @cons word t _ rest spells _ =>
    simp only [List.head?_cons, Option.any_some, Bool.and_eq_true, Bool.not_eq_true'] at other
    have differs {symbol : String} (off : sameWord word symbol = false) :
        t.spells symbol = false := by
      cases spells' : t.spells symbol with
      | false => rfl
      | true => rw [Token.sameWord_of_spells spells spells'] at off; cases off
    exact ⟨t, rest, rfl, differs other.1, differs other.2⟩

/-- An option is read from a clause without a comma. -/
theorem clause_of_option (sound : ∀ t ∈ c.rest, t.Sound Keywords.mysql) (deep : c.depth = 0)
    (read : tableOption.read Parser.calls c = .matched o next) :
    ∃ clause : OptionClause, clause.Spells o ∧ clause.comma = [] ∧
      c.rest = clause.tokens ++ next.rest := by
  obtain ⟨form, mem, words, listed, key, equals, rest, spell, perhaps, whole, value⟩ :=
    (tableOption_matched_iff sound).1 read
  rw [deep] at value
  obtain ⟨taken, rfl, -, -, again⟩ := TableOption.settles_value mem
    (fun t ht => sound t (by simp [whole, ht])) value
  have alone := again 0 [] (by simp [Unstored])
  rw [List.append_nil, Nat.zero_add] at alone
  exact ⟨⟨[], key, equals, taken⟩, ⟨.inl rfl, perhaps, form, mem, ⟨words, listed, spell⟩, alone⟩,
    rfl, by simpa [OptionClause.tokens] using whole⟩

/-- A round reads one clause. -/
theorem clause_of_round (sound : ∀ t ∈ c.rest, t.Sound Keywords.mysql) (deep : c.depth = 0)
    (read : tableOptionRound.read Parser.calls c = .matched o next) :
    ∃ clause : OptionClause, clause.Spells o ∧ c.rest = clause.tokens ++ next.rest := by
  obtain ⟨_, mid, comma, option⟩ := Rule.seqRight_matched_iff.1 read
  rcases Rule.optional_matched_iff.1 comma with ⟨_, -, taken⟩ | ⟨-, rfl, -⟩
  · obtain ⟨t, front, spells, -, -, depth⟩ := literal_matched_iff.1 taken
    obtain ⟨clause, made, none, whole⟩ :=
      clause_of_option (fun t ht => sound t (by simp [front, ht])) (depth.trans deep) option
    have operator := Token.operator_of_spells (sound t (by simp [front])) (by decide) spells
    obtain ⟨-, made⟩ := made
    refine ⟨{ clause with comma := [t] }, ⟨.inr ⟨t, rfl, operator⟩, made⟩, ?_⟩
    rw [front, whole]
    simp [OptionClause.tokens, none]
  · obtain ⟨clause, made, -, whole⟩ := clause_of_option sound deep option
    exact ⟨clause, made, whole⟩

/-- A clause is read in one round, in front of whatever does not look like a storage. -/
theorem round_of_clause {clause : OptionClause} (spells : clause.Spells o) {rest : List Token}
    (sound : ∀ t ∈ clause.tokens ++ rest, t.Sound Keywords.mysql) (free : Unstored rest) (p : Nat) :
    tableOptionRound.read Parser.calls ⟨p, clause.tokens ++ rest, 0⟩ =
      .matched o ⟨p + clause.tokens.length, rest, 0⟩ := by
  obtain ⟨comma, key, equals, value⟩ := clause
  obtain ⟨perhaps, sign, form, mem, ⟨words, listed, spell⟩, alone⟩ := spells
  obtain ⟨first, keys, rfl, notComma, -⟩ := TableOption.heads mem listed spell
  simp only [OptionClause.tokens, List.append_assoc] at sound ⊢
  have option (q : Nat) : tableOption.read Parser.calls
      ⟨q, first :: keys ++ (equals ++ (value ++ rest)), 0⟩ =
        .matched o ⟨q + (first :: keys).length + equals.length + value.length, rest, 0⟩ := by
    obtain ⟨taken, whole, -, -, again⟩ := TableOption.settles_value mem
      (fun t ht => sound t (by simp [ht])) alone
    obtain rfl : value = taken := by simpa using whole
    exact (tableOption_matched_iff fun t ht => sound t (List.mem_append_right _ ht)).2
      ⟨form, mem, words, listed, first :: keys, equals, value ++ rest, spell, sign, by simp,
        again _ _ free⟩
  -- No key begins with a comma, so none is taken where none is written.
  have separator : ∃ x, (literal "," : DdlRule String).optional.read Parser.calls
      ⟨p, comma ++ (first :: keys ++ (equals ++ (value ++ rest))), 0⟩ =
        .matched x ⟨p + comma.length, first :: keys ++ (equals ++ (value ++ rest)), 0⟩ := by
    rcases perhaps with rfl | ⟨t, rfl, kind, text⟩
    · have absent : (literal "," : DdlRule String).FailsHere Parser.calls
          ⟨p, first :: keys ++ (equals ++ (value ++ rest)), 0⟩ :=
        literal_failsHere (by simpa using notComma)
      exact ⟨none, Rule.read_optional_of_early absent.early⟩
    · have spells : t.spells "," = true := by simp [Token.spells, Token.isWord, kind, text]
      exact ⟨some ",", Rule.optional_matched_iff.2 (.inl ⟨",", rfl,
        literal_matched_iff.2 ⟨t, rfl, spells, rfl, rfl, rfl⟩⟩)⟩
  obtain ⟨x, separator⟩ := separator
  refine Rule.seqRight_matched_iff.2 ⟨x, _, separator, ?_⟩
  rw [option]
  simp only [List.length_append, Nat.add_assoc]

/-- The rounds of the options read clauses. -/
theorem clauses_of_rounds {os : List TableOption} (rounds : Rule.Rounds Parser.calls
      tableOptionRound c os next) (sound : ∀ t ∈ c.rest, t.Sound Keywords.mysql)
    (deep : c.depth = 0) :
    ∃ clauses : List OptionClause, List.Forall₂ OptionClause.Spells clauses os ∧
      c.rest = clauses.flatMap OptionClause.tokens ++ next.rest := by
  induction rounds with
  | stop _ => exact ⟨[], .nil, rfl⟩
  | @round c mid next o os read _ later ih =>
    obtain ⟨clause, spells, whole⟩ := clause_of_round sound deep read
    obtain ⟨-, -, -, same⟩ := Rule.reaches_of_read read
    obtain ⟨clauses, made, rest⟩ := ih (fun t ht => sound t (by simp [whole, ht])) (same.trans deep)
    exact ⟨clause :: clauses, .cons spells made, by simp [whole, rest]⟩

theorem unstored_clauses {clauses : List OptionClause} {os : List TableOption} {after : List Token}
    (made : List.Forall₂ OptionClause.Spells clauses os) (free : Unstored after) :
    Unstored (clauses.flatMap OptionClause.tokens ++ after) := by
  cases made with
  | nil => exact free
  | @cons clause _ _ _ spells _ =>
    obtain ⟨perhaps, -, form, mem, ⟨words, listed, spell⟩, -⟩ := spells
    obtain ⟨first, keys, key, -, other⟩ := TableOption.heads mem listed spell
    rcases perhaps with none | ⟨t, comma, kind, text⟩
    · simpa [Unstored, OptionClause.tokens, none, key] using other
    · simp [Unstored, OptionClause.tokens, comma, Token.spells, Token.isWord, kind, text]

/-- Clauses are read by as many rounds, in front of what ends the options. -/
theorem rounds_of_clauses {clauses : List OptionClause} {os : List TableOption}
    {after : List Token} (made : List.Forall₂ OptionClause.Spells clauses os)
    (sound : ∀ t ∈ clauses.flatMap OptionClause.tokens ++ after, t.Sound Keywords.mysql)
    (free : Unstored after) (stop : tableOptionRound.FailsEarly Parser.calls ⟨0, after, 0⟩)
    (p : Nat) :
    Rule.Rounds Parser.calls tableOptionRound
      ⟨p, clauses.flatMap OptionClause.tokens ++ after, 0⟩ os
      ⟨p + (clauses.flatMap OptionClause.tokens).length, after, 0⟩ := by
  induction made generalizing p with
  | nil => exact .stop (stop.from p)
  | @cons clause o clauses os spells made ih =>
    have rest := unstored_clauses made free
    simp only [List.flatMap_cons, List.append_assoc] at sound ⊢
    have first := round_of_clause spells sound rest p
    have later := ih (fun t ht => sound t (List.mem_append_right _ ht)) (p + clause.tokens.length)
    rw [List.length_append, ← Nat.add_assoc]
    have solid : tableOptionRound.nullable = false := by decide
    exact .round first (Rule.consumes_of_some solid first) later

/-- Rounds that begin with clauses read the options of these clauses first. -/
theorem rounds_after_clauses {clauses : List OptionClause} {good os : List TableOption}
    {rest : List Token} (made : List.Forall₂ OptionClause.Spells clauses good)
    (sound : ∀ t ∈ clauses.flatMap OptionClause.tokens ++ rest, t.Sound Keywords.mysql)
    (free : Unstored rest) {p : Nat} (rounds : Rule.Rounds Parser.calls tableOptionRound
      ⟨p, clauses.flatMap OptionClause.tokens ++ rest, 0⟩ os next) :
    ∃ later, os = good ++ later ∧ Rule.Rounds Parser.calls tableOptionRound
      ⟨p + (clauses.flatMap OptionClause.tokens).length, rest, 0⟩ later next := by
  induction made generalizing p os with
  | nil => exact ⟨os, rfl, rounds⟩
  | @cons clause o clauses good spells made ih =>
    have rest := unstored_clauses made free
    simp only [List.flatMap_cons, List.append_assoc] at sound rounds ⊢
    have first := round_of_clause spells sound rest p
    cases rounds with
    | stop early =>
      obtain ⟨f, failed, -⟩ := early
      rw [failed] at first
      cases first
    | round read _ behind =>
      obtain ⟨rfl, rfl⟩ := Outcome.matched.inj (first.symm.trans read)
      obtain ⟨later, rfl, left⟩ := ih (fun t ht => sound t (List.mem_append_right _ ht)) behind
      rw [List.length_append, ← Nat.add_assoc]
      exact ⟨later, rfl, left⟩

end TableDdl
