import TableDdl.Proofs.Grammar.Margin
import TableDdl.Proofs.Grammar.Shifted
import TableDdl.Proofs.RoundTrip.Parsing
import TableDdl.Proofs.TableOption.Forms
import TableDdl.Statement

/-!
# Composition of alterations

A specification is what makes an alteration with a single change of the words `ALTER TABLE` and a
table's name. Main statement: specifications with commas between them make one alteration with the
changes of all of them, in order. Names of partitions at the end of one would go on after a comma,
so a reserved word has to follow these.
-/
namespace TableDdl

open Grammar

variable {calls : Nat} {c next : Cursor} {comma : Token} {others : List Token}

/-- A keyword that is no name. -/
def Token.IsReserved (t : Token) : Prop :=
  t.kind = .keyword ∧ Keywords.mysql.isReserved t.text = true

/-- The change ends in a list of names. -/
def AlterPartitionOption.listsNames : AlterPartitionOption → Bool
  | .dropPartition _ => true
  | .maintain _ (.names _) => true
  | _ => false

theorem identifier_failsHere {first : Token} {rest : List Token} (reserved : first.IsReserved)
    (front : c.rest = first :: rest) : (identifier : DdlRule String).FailsHere calls c := by
  refine Rule.failsHere_token fun t ht other here => ?_
  obtain rfl := List.mem_singleton.1 ht
  obtain rfl : first = other := by simpa [front] using here
  simp [Terminal.accept, reserved.1, reserved.2]

theorem comma_matched {p depth : Nat} (isComma : comma.IsComma) :
    (literal "," : DdlRule String).read calls ⟨p, comma :: others, depth⟩ =
      .matched "," ⟨p + 1, others, depth⟩ := by
  have spells : comma.spells "," = true := by
    simp [Token.spells, Token.isWord, isComma.1, isComma.2]
  exact literal_matched_iff.2 ⟨comma, rfl, spells, rfl, rfl, rfl⟩

/-- The rule takes a value of the kind in front of a comma as it does elsewhere. -/
def Rule.Ends {α : Type} (calls : Nat) (more : List Token) (P : α → Prop) (r : DdlRule α) : Prop :=
  ∀ ⦃c x next⦄, P x → r.read calls c = .matched x next →
    r.read calls (c.extend more) = .matched x (next.extend more)

namespace Rule.Ends

variable {α β : Type} {P : α → Prop} {Q : β → Prop} {r s : DdlRule α}

theorem of_shut (isComma : comma.IsComma) (steady : r.steady Terminal.isComma = true)
    (shut : (r.margin Terminal.isComma).ends = none) : r.Ends calls (comma :: others) P :=
  fun _ _ _ _ => Rule.read_before_comma isComma steady shut

theorem map {f : α → β} (values : ∀ x, Q (f x) → P x) (h : r.Ends calls (comma :: others) P) :
    (f <$> r).Ends calls (comma :: others) Q := by
  intro c y next given read
  obtain ⟨x, matched, rfl⟩ := Rule.map_matched_iff.1 read
  exact Rule.map_matched_iff.2 ⟨x, h (values x given) matched, rfl⟩

theorem seq {t : DdlRule (α → β)} (front : t.Ends calls (comma :: others) fun _ => True)
    (values : t.Yields fun f => ∀ x, Q (f x) → P x) (h : r.Ends calls (comma :: others) P) :
    (t <*> r).Ends calls (comma :: others) Q := by
  intro c y next given read
  obtain ⟨f, x, mid, first, second, rfl⟩ := Rule.seq_matched_iff.1 read
  have given := values _ _ _ _ first x given
  exact Rule.seq_matched_iff.2 ⟨f, x, _, front trivial first, h given second, rfl⟩

theorem seqRight {t : DdlRule β} (front : t.Ends calls (comma :: others) fun _ => True)
    (h : r.Ends calls (comma :: others) P) : (t *> r).Ends calls (comma :: others) P := by
  intro c x next given read
  obtain ⟨y, mid, first, second⟩ := Rule.seqRight_matched_iff.1 read
  exact Rule.seqRight_matched_iff.2 ⟨y, _, front trivial first, h given second⟩

theorem either (isComma : comma.IsComma) (steady : r.steady Terminal.isComma = true)
    (lasts : (r.margin Terminal.isComma).lasts = true) (ha : r.Ends calls (comma :: others) P)
    (hb : s.Ends calls (comma :: others) P) :
    (r <|> s).Ends calls (comma :: others) P := by
  intro c x next given read
  rcases Rule.either_matched_iff.1 read with matched | ⟨early, matched⟩
  · exact Rule.either_matched_iff.2 (.inl (ha given matched))
  · exact Rule.either_matched_iff.2 (.inr ⟨early.before_comma isComma steady
      (Margin.two_le_of_mayFail lasts), hb given matched⟩)

end Rule.Ends

section Ends

variable (isComma : comma.IsComma)
include isComma

/-- A list of names ends in front of a comma and a reserved word. -/
theorem names_ends : (commaList identifier : DdlRule _).Ends calls (comma :: others) fun _ =>
    ∃ first ∈ others.head?, first.IsReserved := by
  intro c names next reserved read
  obtain ⟨x, mid, ys, rfl, first, rounds⟩ := Rule.sepBy1_matched_iff.1 read
  have first' : (identifier : DdlRule String).read calls (c.extend (comma :: others)) =
      .matched x (mid.extend (comma :: others)) :=
    Rule.read_before_comma isComma rfl rfl first
  refine Rule.sepBy1_matched_iff.2 ⟨x, _, ys, rfl, first', ?_⟩
  clear first first' read
  induction rounds with
  | @stop c early =>
    refine .stop ?_
    obtain ⟨p, rest, depth⟩ := c
    cases rest with
    | nil =>
      obtain ⟨t, front, isReserved⟩ := reserved
      obtain ⟨later, rfl⟩ := List.head?_eq_some_iff.1 front
      refine .map Prod.snd (.both_of_matched (comma_matched isComma) (Nat.le_refl _) ?_)
      exact identifier_failsHere isReserved rfl
    | cons t rest =>
      refine early.before_comma isComma (by decide) fun may => ?_
      rcases Margin.of_mayFail_of_lastsOnce (by decide) may with ⟨none, -⟩ | many
      · cases none
      · exact many
  | round matched moved _ ih =>
    exact .round (Rule.read_before_comma isComma (by decide) (by decide) matched)
      moved ih

theorem partitionNames_ends : partitionNames.Ends calls (comma :: others) fun names =>
    (∃ list, names = .names list) → ∃ first ∈ others.head?, first.IsReserved :=
  .either isComma (by decide) (by decide)
    (.of_shut isComma (by decide) (by decide))
    (.map (fun list given => given ⟨list, rfl⟩) (names_ends isComma))

theorem alterPartitionOption_ends : alterPartitionOption.Ends calls (comma :: others) fun o =>
    o.listsNames = true → ∃ first ∈ others.head?, first.IsReserved := by
  refine .either isComma (by decide) (by decide)
    (.of_shut isComma (by decide) (by decide)) ?_
  refine .either isComma (by decide) (by decide)
    (.of_shut isComma (by decide) (by decide)) ?_
  refine .either isComma (by decide) (by decide)
    (.map (fun names given => given rfl) (.seqRight
      (.of_shut isComma (by decide) (by decide)) (names_ends isComma))) ?_
  refine .either isComma (by decide) (by decide) ?_
    (.of_shut isComma (by decide) (by decide))
  refine .seq (.of_shut isComma (by decide) (by decide))
    (.map fun operation names => ?_) (.seqRight
      (.of_shut isComma (by decide) (by decide)) (partitionNames_ends isComma))
  rintro given ⟨list, rfl⟩
  exact given rfl

/-- The change may be followed by a comma and these tokens. -/
theorem alteration_ends : alteration.Ends calls (comma :: others) fun part =>
    ∀ o, part = .partition o → o.listsNames = true →
      ∃ first ∈ others.head?, first.IsReserved :=
  .either isComma (by decide) (by decide)
    (.of_shut isComma (by decide) (by decide))
    (.map (fun o given => given o rfl) (alterPartitionOption_ends isComma))

end Ends

section Lists

variable {α β : Type} {r : DdlRule α} {s : DdlRule β} {x : α} {xs : List α}

theorem Rule.sepBy_matched_iff : (r.sepBy s).read calls c = .matched (x :: xs) next ↔
    (r.sepBy1 s).read calls c = .matched (x :: xs) next := by
  constructor
  · intro read
    obtain ⟨o, matched, same⟩ := Rule.map_matched_iff.1 read
    rcases Rule.optional_matched_iff.1 matched with ⟨ys, rfl, list⟩ | ⟨rfl, -, -⟩
    · obtain rfl : ys = x :: xs := same
      exact list
    · cases same
  · intro list
    exact Rule.map_matched_iff.2 ⟨_, Rule.optional_matched_iff.2 (.inl ⟨_, rfl, list⟩), rfl⟩

/-- A list of one item at the end of a text. -/
theorem commaList_single (read : r.read calls c = .matched x next) (ended : next.rest = []) :
    (commaList r).read calls c = .matched [x] next := by
  refine Rule.sepBy1_matched_iff.2 ⟨x, next, [], rfl, read, .stop (.map Prod.snd ?_)⟩
  exact (literal_failsHere (by simp [ended])).early.both r

/-- An item, a comma and a list. -/
theorem commaList_cons {p depth : Nat} (isComma : comma.IsComma)
    (read : r.read calls c = .matched x ⟨p, comma :: others, depth⟩)
    (later : (commaList r).read calls ⟨p + 1, others, depth⟩ = .matched xs next) :
    (commaList r).read calls c = .matched (x :: xs) next := by
  obtain ⟨y, mid, ys, rfl, second, rounds⟩ := Rule.sepBy1_matched_iff.1 later
  have round : (literal "," *> r).read calls ⟨p, comma :: others, depth⟩ = .matched y mid :=
    Rule.seqRight_matched_iff.2 ⟨",", _, comma_matched isComma, second⟩
  have moved : mid.pos ≠ p := by
    have := (Rule.reaches_of_read second).le
    simp only at this
    omega
  exact Rule.sepBy1_matched_iff.2 ⟨x, _, y :: ys, rfl, read, .round round moved rounds⟩

end Lists

theorem AlterTable.length_ofParts (name : TableName) (parts : List Alteration) :
    (ofParts name parts).options.length + (ofParts name parts).partitionOptions.length =
      parts.length := by
  induction parts with
  | nil => rfl
  | cons part parts ih =>
    simp only [ofParts, List.filterMap_cons] at ih ⊢
    cases part <;> simp only [List.length_cons] <;> omega

/-- What an alteration is read as. -/
theorem alterTable_matched_iff {alter table : Token} {ts : List Token} {t : AlterTable} :
    alterTable.read calls (.start (alter :: table :: ts)) = .matched t next ↔
      alter.spells "ALTER" = true ∧ table.spells "TABLE" = true ∧ ∃ name mid parts,
        tableName.read calls ⟨2, ts, 0⟩ = .matched name mid ∧
          (commaList0 alteration).read calls mid = .matched parts next ∧ .ofParts name parts = t := by
  constructor
  · intro read
    obtain ⟨_, parts, mid, head, list, rfl⟩ := Rule.seq_matched_iff.1 read
    obtain ⟨name, matched, rfl⟩ := Rule.map_matched_iff.1 head
    obtain ⟨_, two, words, named⟩ := Rule.seqRight_matched_iff.1 matched
    obtain ⟨_, one, first, second⟩ := Rule.seqRight_matched_iff.1 words
    obtain ⟨_, front, spells, -, pos, depth⟩ := literal_matched_iff.1 first
    obtain ⟨rfl, rest⟩ := List.cons.inj front
    obtain ⟨_, front, spells', -, pos', depth'⟩ := literal_matched_iff.1 second
    obtain ⟨rfl, rest'⟩ := List.cons.inj (rest.trans front)
    obtain ⟨p, rest'', d⟩ := two
    simp only [Cursor.start] at pos pos' depth depth' rest'
    obtain ⟨rfl, rfl, rfl⟩ : p = 2 ∧ rest'' = ts ∧ d = 0 := ⟨by omega, rest'.symm, by omega⟩
    exact ⟨spells, spells', name, mid, parts, named, list, rfl⟩
  · rintro ⟨spells, spells', name, mid, parts, named, list, rfl⟩
    have first : (literal "ALTER" : DdlRule String).read calls (.start (alter :: table :: ts)) =
        .matched "ALTER" ⟨1, table :: ts, 0⟩ :=
      literal_matched_iff.2 ⟨alter, rfl, spells, rfl, rfl, rfl⟩
    have second : (literal "TABLE" : DdlRule String).read calls ⟨1, table :: ts, 0⟩ =
        .matched "TABLE" ⟨2, ts, 0⟩ :=
      literal_matched_iff.2 ⟨table, rfl, spells', rfl, rfl, rfl⟩
    have words : (literal "ALTER" *> literal "TABLE" : DdlRule String).read calls
        (.start (alter :: table :: ts)) = .matched "TABLE" ⟨2, ts, 0⟩ :=
      Rule.seqRight_matched_iff.2 ⟨"ALTER", _, first, second⟩
    refine Rule.seq_matched_iff.2 ⟨_, parts, mid, Rule.map_matched_iff.2 ⟨name, ?_, rfl⟩, list, rfl⟩
    exact Rule.seqRight_matched_iff.2 ⟨"TABLE", _, words, named⟩

/-- A table's name is read up to its end wherever no dot follows. -/
theorem tableName_read {p depth : Nat} {ts rest rest' : List Token} {name : TableName}
    (read : tableName.read calls ⟨p, ts ++ rest, depth⟩ = .matched name ⟨p + ts.length, rest, depth⟩)
    (other : ∀ t ∈ rest'.head?, t.spells "." = false) :
    tableName.read calls ⟨p, ts ++ rest', depth⟩ =
      .matched name ⟨p + ts.length, rest', depth⟩ := by
  obtain ⟨_, second, mid, front, back, rfl⟩ := Rule.seq_matched_iff.1 read
  obtain ⟨first, matched, rfl⟩ := Rule.map_matched_iff.1 front
  obtain ⟨t, tail, whole, accepted, rfl⟩ := token_matched_iff.1 matched
  have named (others : List Token) : (TableName.ofParts <$> identifier).read calls
      ⟨p, t :: others, depth⟩ = .matched (TableName.ofParts first) ⟨p + 1, others, depth⟩ :=
    Rule.map_matched_iff.2 ⟨first, token_matched_iff.2 ⟨t, others, rfl, accepted, rfl⟩, rfl⟩
  rcases Rule.optional_matched_iff.1 back with ⟨second, rfl, given⟩ | ⟨rfl, same, -⟩
  · obtain ⟨_, ⟨p', _, depth'⟩, dotted, last⟩ := Rule.seqRight_matched_iff.1 given
    obtain ⟨u, front, dot, -, pos, deep⟩ := literal_matched_iff.1 dotted
    obtain ⟨v, _, rfl, accepted', same⟩ := token_matched_iff.1 last
    obtain ⟨place, rfl, -⟩ := Cursor.mk.inj same
    simp only at front pos deep
    obtain rfl : ts = [t, u, v] := List.append_cancel_right (by simpa [front] using whole)
    have dotted' : (literal "." : DdlRule String).read calls ⟨p + 1, u :: v :: rest', depth⟩ =
        .matched "." ⟨p + 2, v :: rest', depth⟩ :=
      literal_matched_iff.2 ⟨u, rfl, dot, rfl, rfl, rfl⟩
    have last' : (identifier : DdlRule String).read calls ⟨p + 2, v :: rest', depth⟩ =
        .matched second ⟨p + 3, rest', depth⟩ :=
      token_matched_iff.2 ⟨v, rest', rfl, accepted', rfl⟩
    refine Rule.seq_matched_iff.2 ⟨_, some second, _, named _, Rule.optional_matched_iff.2
      (.inl ⟨second, rfl, ?_⟩), rfl⟩
    exact Rule.seqRight_matched_iff.2 ⟨".", _, dotted', last'⟩
  · obtain ⟨-, rfl, -⟩ := Cursor.mk.inj same
    obtain rfl : ts = [t] := List.append_cancel_right whole
    have absent : (literal "." *> identifier : DdlRule String).FailsEarly calls
        ⟨p + 1, rest', depth⟩ :=
      .map Prod.snd ((literal_failsHere other).early.both _)
    exact Rule.seq_matched_iff.2 ⟨_, none, _, named rest', Rule.optional_matched_iff.2
      (.inr ⟨rfl, rfl, absent⟩), rfl⟩

/-- Tokens that, after the words `ALTER TABLE` and a table's name, make an alteration with a single
change. -/
structure AlterTable.Specification (alter table : Token) (name : List Token) where
  tokens : List Token
  tree : AlterTable
  accepted : ∃ sql, Parser.parseTokens .mysql alterTable sql (alter :: table :: (name ++ tokens)) =
    .ok tree
  single : tree.options.length + tree.partitionOptions.length = 1
  named : tableName.read Parser.calls ⟨2, name ++ tokens, 0⟩ =
    .matched tree.name ⟨2 + name.length, tokens, 0⟩
  unended : ∀ t ∈ tokens, t.spells ";" = false

namespace AlterTable.Specification

variable {alter table : Token} {name : List Token}

/-- What follows does not go on with the names of partitions at the end of the specification. -/
def Allows (s s' : Specification alter table name) : Prop :=
  s.tree.partitionOptions.any AlterPartitionOption.listsNames = true →
    ∃ first ∈ s'.tokens.head?, first.IsReserved

/-- The tokens of one or more specifications, with a comma between any two of them. -/
inductive Joined : List (Specification alter table name) → List Token → Prop
  | single (s : Specification alter table name) : Joined [s] s.tokens
  | cons (s : Specification alter table name) {comma : Token} (isComma : comma.IsComma)
      {ss : List (Specification alter table name)} {ts : List Token} (others : Joined ss ts) :
      Joined (s :: ss) (s.tokens ++ comma :: ts)

theorem exists_cons {ss : List (Specification alter table name)} {ts : List Token}
    (joined : Joined ss ts) : ∃ s ss', ss = s :: ss' := by
  cases joined with
  | single s => exact ⟨s, [], rfl⟩
  | cons s _ _ => exact ⟨s, _, rfl⟩

/-- Joined specifications begin as the first of them does. -/
theorem head_of_joined {s : Specification alter table name} {first : Token}
    {ss : List (Specification alter table name)} {ts : List Token} (joined : Joined (s :: ss) ts)
    (front : first ∈ s.tokens.head?) : first ∈ ts.head? := by
  cases joined with
  | single s => exact front
  | cons s _ _ =>
    obtain ⟨rest, whole⟩ := List.head?_eq_some_iff.1 front
    simp [whole]

/-- The words in front of the name, and the only change. -/
theorem exists_part (s : Specification alter table name) :
    (alter.spells "ALTER" = true ∧ table.spells "TABLE" = true) ∧
      ∃ part, s.tree = .ofParts s.tree.name [part] ∧
        ∀ p, ∃ q, alteration.read Parser.calls ⟨p, s.tokens, 0⟩ = .matched part ⟨q, [], 0⟩ := by
  obtain ⟨sql, accepted⟩ := s.accepted
  obtain ⟨last, read, ends⟩ := Parser.parseTokens_iff_read.1 accepted
  obtain ⟨spells, spells', n, mid, parts, named, list, tree⟩ := alterTable_matched_iff.1 read
  obtain ⟨rfl, rfl⟩ := Outcome.matched.inj (s.named.symm.trans named)
  have length := AlterTable.length_ofParts s.tree.name parts
  rw [tree, s.single] at length
  obtain ⟨part, rfl⟩ := List.length_eq_one_iff.1 length.symm
  obtain ⟨_, _, _, same, first, rounds⟩ := Rule.sepBy1_matched_iff.1 (Rule.sepBy_matched_iff.1 list)
  obtain ⟨rfl, rfl⟩ := List.cons.inj same
  cases rounds with
  | stop _ =>
    obtain ⟨taken, whole, -, deep⟩ := Rule.reaches_of_read first
    have ended : last.rest = [] := by
      rcases ends with ended | ⟨t, ended, spells⟩
      · exact ended
      · have := s.unended t (by rw [show s.tokens = _ from whole]; simp [ended])
        simp [spells] at this
    refine ⟨⟨spells, spells'⟩, part, tree.symm, fun p => ?_⟩
    have moved := Rule.read_from first p
    rw [ended, deep] at moved
    exact ⟨_, moved⟩

/-- A specification begins with a token that is no dot. -/
theorem exists_head (s : Specification alter table name) :
    ∃ first ∈ s.tokens.head?, first.spells "." = false := by
  obtain ⟨-, part, -, read⟩ := s.exists_part
  obtain ⟨q, read⟩ := read 0
  cases tokens : s.tokens with
  | nil =>
    rw [tokens] at read
    have moved := Rule.consumes_of_some (by decide) read
    have total := (Rule.reaches_of_read read).total
    simp only [List.length_nil] at moved total
    omega
  | cons first rest =>
    refine ⟨first, rfl, ?_⟩
    cases dot : first.spells "." with
    | false => rfl
    | true =>
      obtain ⟨f, failed, -⟩ := Rule.failsHere_of_refusesWord (c := ⟨0, s.tokens, 0⟩)
        (r := alteration) (by decide) dot tokens
      cases read.symm.trans failed

/-- Joined specifications are read as a list of their changes. -/
theorem read_joined {ss : List (Specification alter table name)} {ts : List Token}
    (joined : Joined ss ts) (free : ss.IsChain Allows) (p : Nat) :
    ∃ parts q, (commaList alteration).read Parser.calls ⟨p, ts, 0⟩ = .matched parts ⟨q, [], 0⟩ ∧
      List.Forall₂ (fun s part => s.tree = .ofParts s.tree.name [part]) ss parts := by
  induction joined generalizing p with
  | single s =>
    obtain ⟨-, part, tree, read⟩ := s.exists_part
    obtain ⟨q, read⟩ := read p
    exact ⟨[part], q, commaList_single read rfl, .cons tree .nil⟩
  | @cons s comma isComma ss ts others ih =>
    obtain ⟨-, part, tree, read⟩ := s.exists_part
    obtain ⟨q, read⟩ := read p
    obtain ⟨parts, q', later, trees⟩ := ih free.tail (q + 1)
    refine ⟨part :: parts, q', commaList_cons isComma ?_ later, .cons tree trees⟩
    refine alteration_ends isComma (fun o same names => ?_) read
    subst same
    obtain ⟨s', ss', rfl⟩ := exists_cons others
    have allows := (List.isChain_cons_cons.1 free).1
    obtain ⟨first, front, reserved⟩ := allows (by rw [tree]; simpa [AlterTable.ofParts] using names)
    exact ⟨first, head_of_joined others front, reserved⟩

/-- An alteration made of the changes of all specifications has their options. -/
theorem changes_of_parts {ss : List (Specification alter table name)} {parts : List Alteration}
    (trees : List.Forall₂ (fun s part => s.tree = .ofParts s.tree.name [part]) ss parts)
    (n : TableName) :
    (AlterTable.ofParts n parts).options = ss.flatMap (·.tree.options) ∧
      (AlterTable.ofParts n parts).partitionOptions = ss.flatMap (·.tree.partitionOptions) := by
  induction trees with
  | nil => exact ⟨rfl, rfl⟩
  | @cons s part ss parts tree _ ih =>
    have front := AlterTable.options_ofParts_append n [part] parts
    have front' := AlterTable.partitionOptions_ofParts_append n [part] parts
    rw [List.flatMap_cons, List.flatMap_cons, ← ih.1, ← ih.2, tree]
    exact ⟨front, front'⟩

/-- Specifications with commas between them make one alteration with the changes of all of them, in
order: an alteration of the table, and a statement. -/
theorem parseTokens_joined {ss : List (Specification alter table name)} {ts us : List Token}
    (joined : Joined ss ts) (free : ss.IsChain Allows)
    (same : us.map Token.anywhere = (alter :: table :: (name ++ ts)).map Token.anywhere)
    (sql : String) : ∃ t : AlterTable,
      Parser.parseTokens .mysql alterTable sql us = .ok t ∧
      Parser.parseTokens .mysql statement sql us = .ok (.alterTable t) ∧
      (∀ s ∈ ss, t.name = s.tree.name) ∧
      t.options = ss.flatMap (·.tree.options) ∧
      t.partitionOptions = ss.flatMap (·.tree.partitionOptions) := by
  obtain ⟨first, ss', rfl⟩ := exists_cons joined
  obtain ⟨⟨spells, spells'⟩, -⟩ := first.exists_part
  obtain ⟨parts, q, list, trees⟩ := read_joined joined free (2 + name.length)
  have dotless : ∀ t ∈ ts.head?, t.spells "." = false := by
    obtain ⟨u, front, other⟩ := first.exists_head
    intro t front'
    rwa [Option.mem_unique front' (head_of_joined joined front)]
  have named (s : Specification alter table name) :
      tableName.read Parser.calls ⟨2, name ++ ts, 0⟩ =
        .matched s.tree.name ⟨2 + name.length, ts, 0⟩ := tableName_read s.named dotless
  have whole : (commaList0 alteration).read Parser.calls ⟨2 + name.length, ts, 0⟩ =
      .matched parts ⟨q, [], 0⟩ := by
    cases trees with
    | cons _ _ => exact Rule.sepBy_matched_iff.2 list
  have read := alterTable_matched_iff.2
    ⟨spells, spells', first.tree.name, _, parts, named first, whole, rfl⟩
  -- What is read does not depend on the places of the tokens, so `us` is read as these are.
  have accepted {α : Type} {rule : DdlRule α} {x : α} {last : Cursor}
      (read : rule.read Parser.calls (.start (alter :: table :: (name ++ ts))) = .matched x last)
      (ended : last.rest = []) : Parser.parseTokens .mysql rule sql us = .ok x := by
    have plain : Parser.parseTokens .mysql rule sql (alter :: table :: (name ++ ts)) = .ok x :=
      Parser.parseTokens_iff_read.2 ⟨last, read, .inl ended⟩
    exact (Parser.parseTokens_anywhere same).2 plain
  have other : (Statement.createTable <$> createTable).FailsEarly Parser.calls
      (.start (alter :: table :: (name ++ ts))) :=
    (Rule.failsHere_of_refusesWord (by decide) spells rfl).early
  obtain ⟨options, partitionOptions⟩ := changes_of_parts trees first.tree.name
  have statement_read : statement.read Parser.calls (.start (alter :: table :: (name ++ ts))) =
      .matched (.alterTable (.ofParts first.tree.name parts)) ⟨q, [], 0⟩ :=
    Rule.either_matched_iff.2 (.inr ⟨other, Rule.map_matched_iff.2 ⟨_, read, rfl⟩⟩)
  exact ⟨_, accepted read rfl, accepted statement_read rfl,
    fun s _ => (Outcome.matched.inj ((named first).symm.trans (named s))).1,
    options, partitionOptions⟩

/-- Two changes that start with the same word, the first with a name of a partition at its end. -/
theorem parseTokens_joined_drop :
    let word (text : String) : Token := ⟨.keyword, text, .start⟩
    let name (text : String) : Token := ⟨.identifier, text, .start⟩
    let comma : Token := ⟨.operator, ",", .start⟩
    let partition := [word "DROP", word "PARTITION", name "p"]
    let column := [word "DROP", word "COLUMN", name "c"]
    ∃ s s' : Specification (word "ALTER") (word "TABLE") [name "t"],
      s.tokens = partition ∧ s'.tokens = column ∧
      Joined [s, s'] (partition ++ comma :: column) ∧ [s, s'].IsChain Allows ∧
      Parser.parseTokens .mysql alterTable ""
          ([word "ALTER", word "TABLE", name "t"] ++ (partition ++ comma :: column)) =
        .ok ⟨⟨none, "t"⟩, [.dropColumn "c"], [.dropPartition ["p"]]⟩ := by
  intro word name comma partition column
  let s : Specification (word "ALTER") (word "TABLE") [name "t"] :=
    { tokens := partition
      tree := ⟨⟨none, "t"⟩, [], [.dropPartition ["p"]]⟩
      accepted := ⟨"", Parser.eq_ok_of_toOption (by decide +kernel)⟩
      single := rfl
      named := by decide +kernel
      unended := by decide +kernel }
  let s' : Specification (word "ALTER") (word "TABLE") [name "t"] :=
    { tokens := column
      tree := ⟨⟨none, "t"⟩, [.dropColumn "c"], []⟩
      accepted := ⟨"", Parser.eq_ok_of_toOption (by decide +kernel)⟩
      single := rfl
      named := by decide +kernel
      unended := by decide +kernel }
  have joined : Joined [s, s'] (partition ++ comma :: column) := .cons s ⟨rfl, rfl⟩ (.single s')
  have free : [s, s'].IsChain Allows :=
    List.isChain_cons_cons.2 ⟨fun _ => ⟨word "DROP", rfl, rfl, by decide⟩, .singleton s'⟩
  obtain ⟨t, accepted, -, names, options, partitionOptions⟩ :=
    parseTokens_joined joined free rfl ""
  refine ⟨s, s', rfl, rfl, joined, free, accepted.trans ?_⟩
  obtain ⟨n, os, ps⟩ := t
  obtain rfl : n = ⟨none, "t"⟩ := names s (by simp)
  obtain rfl : os = [.dropColumn "c"] := options
  obtain rfl : ps = [.dropPartition ["p"]] := partitionOptions
  rfl

end AlterTable.Specification
end TableDdl
