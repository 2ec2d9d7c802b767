import TableDdl.Proofs.CreateTable.RoundTrip
import TableDdl.Proofs.CreateTable.Separators
import TableDdl.Proofs.Layout.Quoting
import TableDdl.Proofs.Statement.Spacing
import TableDdl.Proofs.TableOption.Named

/-!
# Written table options

The name in an option may come from a string literal, and then it may be empty or hold a
backquote. Main statement: the options of an accepted table definition come back from its written
form just where no option has such a name. The first one that has it is cut at its first backquote,
and is read with a shorter name, if it is read at all.
-/
namespace TableDdl

open Grammar Scan

variable {ts : List Token} {name : String} {signed : Bool} {p : Position}

/-- Where a name without a written form stands in a layout, another name is read. -/
theorem exists_token_of_not_nameOk {front back : Layout} (spaced : front.Spaced)
    (writable : ∀ l ∈ front.lexemes, l.Writable) (tame : Tame front.lexemes)
    (closes : front.getLast? = some .space) (bad : ¬ NameOk name)
    (cut : tokenize .mysql (front ++ Layout.name name ++ back).write = .ok ts) :
    ∃ before t later inner, ts = before ++ t :: later ∧
      before.map Token.anywhere = tokensOf front.lexemes ∧
      Terminal.identifier.accept .mysql t = some inner ∧ inner ≠ name := by
  have first : true = false → ∀ l ∈ front.lexemes.head?, l.token.isSigned = false := nofun
  obtain ⟨before, signed, same, cut'⟩ := tokensFrom_text_append
    (x := Layout.quoteName name ++ back.text) spaced writable tame first
    (by simp [Layout.StopsBefore, closes]) .start
  have text : (front ++ Layout.name name ++ back).text =
      front.text ++ (Layout.quoteName name ++ back.text) := by
    simp [Layout.name, Layout.text, Piece.text, Lexeme.text]
  rw [tokenize, Layout.write, String.toList_ofList, text, cut'] at cut
  rcases scan_quoteName bad back.text with none | ⟨content, rest, other, found⟩
  · have some : Layout.quoteName name ++ back.text ≠ [] := by
      simp [quoteName_of_not_nameOk bad]
    rw [tokensFrom_of_scan_eq_none none some] at cut
    cases cut
  · rw [tokensFrom_of_scan_eq_some found] at cut
    simp only at cut
    cases more : tokensFrom .mysql _ _ rest with
    | error e =>
      rw [more] at cut
      cases cut
    | ok later =>
      rw [more] at cut
      refine ⟨before, _, later, String.ofList content, (Except.ok.inj cut).symm, same, ?_, ?_⟩
      · simp [Terminal.accept, Terminal.unquote, Terminal.inner]
      · rintro rfl
        simp at other

/-- A definition as it is written up to the end of its columns and keys. -/
def CreateTable.headLayout (t : CreateTable) : Layout :=
  Layout.word "CREATE" ++ Layout.onlyIf t.temporary (Layout.word "TEMPORARY") ++ Layout.space
    ++ Layout.word "TABLE" ++ Layout.onlyIf t.ifNotExists (Layout.words ["IF", "NOT", "EXISTS"])
    ++ Layout.space ++ t.name.layout ++ Layout.space
    ++ Layout.parenthesized (Layout.commaSeparated (t.definitions.map Definition.layout))

def CreateTable.headWritten (t : CreateTable) : Written :=
  ⟨t.headLayout.lexemes, t.definitions.flatMap Definition.looseNames,
    t.definitions.flatMap Definition.heads⟩

/-- What is written of a head does not depend on the options behind it. -/
def Codec.tableHead : Codec Grammar.tableHead fun head t =>
    ∀ os partitioning, t = (head os partitioning).headWritten :=
  (((((flag (.word "TEMPORARY")).led (.word "CREATE")).map CreateTable.mk).seq
    ((flag (((Mark.word "IF").after (.word "NOT")).after (.word "EXISTS"))).led
      (.word "TABLE"))).seq tableName).seq definitions |>.restate (by
    rintro _ _ ⟨_, definitions, _, _, ⟨_, name, _, _, ⟨_, ifNotExists, _, _,
      ⟨temporary, rfl, rfl⟩, rfl, rfl, rfl⟩, rfl, rfl, rfl⟩, rfl, rfl, rfl⟩ os partitioning
    apply Written.ext <;> simp [CreateTable.headWritten, CreateTable.headLayout])

namespace CreateTable

variable {sql : String} {ct again : CreateTable}

/-- The parts of an accepted definition are read back from what is written of them. -/
structure Parts (ct : CreateTable) : Prop where
  head : ∃ head, tableHead.ReadsBack Parser.calls 0 Codec.tableHead.edges head ct.headWritten
  options : ∀ o ∈ ct.options,
    tableOptionRound.ReadsBack Parser.calls 0 Codec.followingOption.edges o o.written
  tame : Tame ct.layout.lexemes

theorem parts_of_parse (parsed : CreateTable.parse .mysql sql = .ok ct) : Parts ct := by
  obtain ⟨ts, mid, cut, read, -⟩ := Parser.read_of_parse parsed
  have scanned := scanned_of_tokenize cut
  obtain ⟨_, rfl, whole⟩ := Codec.createTable.written Codec.coherent_createTable scanned read
  obtain ⟨head, os, partitioning, one, two, first, second, -, rfl⟩ := createTable_matched_iff.1 read
  obtain ⟨t, written, back⟩ := Codec.tableHead.written (by decide +kernel) scanned first
  have rounds := (Rule.many_matched_iff (Rule.consumes_of_some (by decide))).1 second
  obtain ⟨us, writes, backs⟩ :=
    Codec.followingOption.written_of_rounds (by decide +kernel) rounds (scanned_of_read scanned first)
  obtain rfl := Writes.forall₂_exactly.1 writes
  rw [List.forall₂_map_right_iff, List.forall₂_same, depth_of_read first] at backs
  have same : (head os partitioning).options = os := options_tableHead _ _ _ _ first os partitioning
  exact ⟨⟨head, written os partitioning ▸ back⟩, same.symm ▸ backs, whole.sound.2⟩

/-- A definition as it is written up to the name of an option: the head, some options, and the key
of the option. -/
def layoutBefore (ct : CreateTable) (before : List TableOption) (words : List String)
    (sign : Layout) : Layout :=
  ct.headLayout ++ Layout.appended (before.map TableOption.layout) ++ Layout.space
    ++ Layout.words words ++ sign ++ Layout.space

variable {before others : List TableOption} {o : TableOption} {words : List String}
  {sign back : Layout}

theorem lexemes_layoutBefore (ct : CreateTable) (before : List TableOption) (words : List String)
    (sign : Layout) : (ct.layoutBefore before words sign).lexemes = ct.headLayout.lexemes ++
      (before.flatMap (fun o => o.layout.lexemes) ++ (words.map .word ++ sign.lexemes)) := by
  simp [layoutBefore, Layout.appended, List.flatMap_map]

theorem exists_layout_eq (split : ct.options = before ++ o :: others)
    (has : o.HasName name words sign back) :
    ∃ later, ct.layout = ct.layoutBefore before words sign ++ Layout.name name ++ later := by
  have whole : ct.layout = ct.headLayout ++ Layout.appended (ct.options.map TableOption.layout)
    ++ Layout.given ct.partitioning fun p =>
      Layout.words ["PARTITION", "BY"] ++ Layout.space ++ p.layout := rfl
  refine ⟨back ++ Layout.appended (others.map TableOption.layout) ++ Layout.given ct.partitioning
    fun p => Layout.words ["PARTITION", "BY"] ++ Layout.space ++ p.layout, ?_⟩
  simp [whole, split, layoutBefore, Layout.appended, has.layout]

theorem writable_layoutBefore (parts : Parts ct) (good : ct.headWritten.Good)
    (split : ct.options = before ++ o :: others)
    (names : ∀ o ∈ before, ∀ name ∈ o.looseNames, NameOk name)
    (has : o.HasName name words sign back) :
    ∀ l ∈ (ct.layoutBefore before words sign).lexemes, l.Writable := by
  obtain ⟨head, reads⟩ := parts.head
  obtain ⟨i, named⟩ := has.named
  rw [lexemes_layoutBefore]
  simp only [List.forall_mem_append, List.mem_flatMap, List.mem_map]
  refine ⟨reads.sound.writable good, ?_, ?_, ?_⟩
  · rintro l ⟨o, mem, hl⟩
    have reads := parts.options o (split ▸ List.mem_append_left _ mem)
    exact reads.sound.writable ⟨names o mem, List.forall_mem_nil _⟩ l hl
  · rintro _ ⟨word, mem, rfl⟩
    exact isPlainWord_of_nameForms _ named word mem
  · rcases has.signs with rfl | rfl
    · exact List.forall_mem_nil _
    · decide

/-- Behind its head, its first options and the key of the next one, a definition is read with the
name that stands there. -/
theorem looseNames_of_read (parts : Parts ct) (good : ct.headWritten.Good)
    (split : ct.options = before ++ o :: others)
    (names : ∀ o ∈ before, ∀ name ∈ o.looseNames, NameOk name)
    (has : o.HasName name words sign back) {inner : String} {t : Token} {later : List Token}
    (accepted : Terminal.identifier.accept .mysql t = some inner)
    (sound : ∀ u ∈ tokensOf (ct.layoutBefore before words sign).lexemes ++ t :: later,
      u.Sound .mysql) {last : Cursor}
    (read : createTable.read Parser.calls
      (.start (tokensOf (ct.layoutBefore before words sign).lexemes ++ t :: later)) =
        .matched again last) (same : again.options = ct.options) : o.looseNames = [inner] := by
  obtain ⟨i, named⟩ := has.named
  rw [lexemes_layoutBefore, tokensOf_append, tokensOf_append, tokensOf_append] at sound read
  simp only [List.append_assoc] at sound read
  obtain ⟨-, behind⟩ := List.forall_mem_append.1 sound
  obtain ⟨soundBefore, soundKey⟩ := List.forall_mem_append.1 behind
  obtain ⟨head', os, partitioning, one, two, first, second, -, rfl⟩ :=
    createTable_matched_iff.1 read
  have own : (head' os partitioning).options = os := options_tableHead _ _ _ _ first os partitioning
  obtain rfl : os = ct.options := own.symm.trans same
  obtain ⟨head, reads⟩ := parts.head
  have front (rest : List Token) := reads.takes good 0 rest <| by
    have closed : Codec.tableHead.edges.follow = [] := by decide +kernel
    rw [closed]
    exact List.forall_mem_nil _
  obtain ⟨-, rfl⟩ := Outcome.matched.inj (first.symm.trans (front _))
  -- The options in front are read one by one, and then the next one from its key on.
  have rounds := (Rule.many_matched_iff (Rule.consumes_of_some (by decide))).1 second
  obtain ⟨clauses, made, tokens⟩ := exists_clauses
    (fun o mem => parts.options o (split ▸ List.mem_append_left _ mem)) names soundBefore
  have spell := spell_words (isPlainWord_of_nameForms _ named)
  have free : Unstored (tokensOf (words.map .word) ++ (tokensOf sign.lexemes ++ t :: later)) := by
    obtain ⟨u, us, key, -, other⟩ :=
      TableOption.heads (List.get_mem ..) (TableOption.mem_keys_of_nameForms _ named) spell
    simpa [Unstored, key] using other
  rw [← tokens] at rounds behind
  obtain ⟨left, split', rounds⟩ := rounds_after_clauses made behind free rounds
  obtain rfl : o :: others = left := List.append_cancel_left (split.symm.trans split')
  have perhaps : Perhaps "=" (tokensOf sign.lexemes) := by
    rcases has.signs with rfl | rfl
    · exact .inl rfl
    · exact .inr ⟨_, rfl, rfl, rfl⟩
  cases rounds with
  | round read _ _ =>
    exact looseNames_of_round soundKey named spell perhaps (List.append_assoc ..).symm accepted read

/-- Before an option that comes back, all others did, so its names have a written form as well. -/
theorem nameOk_of_again (parts : Parts ct) (good : ct.headWritten.Good)
    (split : ct.options = before ++ o :: others)
    (names : ∀ o ∈ before, ∀ name ∈ o.looseNames, NameOk name)
    (parsed : CreateTable.parse .mysql ct.layout.write = .ok again)
    (same : again.options = ct.options) : ∀ name ∈ o.looseNames, NameOk name := by
  intro name mem
  by_contra bad
  obtain ⟨words, sign, back, has⟩ := TableOption.exists_hasName mem
  obtain ⟨later, layout⟩ := exists_layout_eq split has
  have writable := writable_layoutBefore parts good split names has
  have spaced := CreateTable.spaced_layout ct
  have tame := parts.tame
  rw [layout, List.append_assoc] at spaced
  rw [layout, List.append_assoc, Layout.lexemes_append] at tame
  obtain ⟨ts, last, cut, read, ends⟩ := Parser.read_of_parse parsed
  rw [layout] at cut
  have closes : (ct.layoutBefore before words sign).getLast? = some .space :=
    List.getLast?_concat ..
  -- Without a written form the name is cut into another name, with the same tokens in front.
  obtain ⟨front, t, behind, inner, rfl, placed, accepted, other⟩ :=
    exists_token_of_not_nameOk spaced.left_of_append writable tame.left_of_append closes bad cut
  have alike : (tokensOf (ct.layoutBefore before words sign).lexemes ++ t :: behind).map
      Token.anywhere = (front ++ t :: behind).map Token.anywhere := by
    simp [← placed, Token.anywhere]
  have sound : ∀ u ∈ tokensOf (ct.layoutBefore before words sign).lexemes ++ t :: behind,
      u.Sound .mysql := by
    obtain ⟨soundFront, soundBehind⟩ := List.forall_mem_append.1 (scanned_of_tokenize cut).1
    rw [← placed]
    exact List.forall_mem_append.2 ⟨List.forall_mem_map.2 soundFront, soundBehind⟩
  have taken : Parser.parseTokens .mysql createTable "" (front ++ t :: behind) = .ok again :=
    Parser.parseTokens_iff_read.2 ⟨last, read, ends⟩
  have taken' : Parser.parseTokens .mysql createTable ""
      (tokensOf (ct.layoutBefore before words sign).lexemes ++ t :: behind) = .ok again :=
    (Parser.parseTokens_anywhere alike).2 taken
  obtain ⟨last', read', -⟩ := Parser.parseTokens_iff_read.1 taken'
  have own := looseNames_of_read parts good split names has accepted sound read' same
  rw [own, List.mem_singleton] at mem
  exact other mem.symm

/-- The options of an accepted table definition come back from its written form just where the
names in them are neither empty nor hold a backquote. -/
theorem parse_write_options_iff (parsed : CreateTable.parse .mysql sql = .ok ct)
    (names : ∀ name ∈ ct.definitions.flatMap Definition.looseNames, NameOk name)
    (names' : ∀ name ∈ ct.partitioning.elim [] Partitioning.looseNames, NameOk name)
    (heads : ∀ head ∈ ct.heads, HeadOk head) :
    (∃ again, CreateTable.parse .mysql ct.layout.write = .ok again ∧ again.options = ct.options) ↔
      ∀ o ∈ ct.options, ∀ name ∈ o.looseNames, NameOk name := by
  have parts := parts_of_parse parsed
  have good : ct.headWritten.Good :=
    ⟨names, fun head mem => heads head (List.mem_append_left _ mem)⟩
  constructor
  · rintro ⟨again, back, same⟩
    -- The options in front are enough to know how the next one is read.
    suffices all : ∀ before others, ct.options = before ++ others →
        (∀ o ∈ before, ∀ name ∈ o.looseNames, NameOk name) →
          ∀ o ∈ others, ∀ name ∈ o.looseNames, NameOk name from all [] _ rfl nofun
    intro before others split fine
    induction others generalizing before with
    | nil => nofun
    | cons o others ih =>
      have own := nameOk_of_again parts good split fine back same
      have later := ih (before ++ [o]) (by simp [split])
        (List.forall_mem_append.2 ⟨fine, List.forall_mem_singleton.2 own⟩)
      exact List.forall_mem_cons.2 ⟨own, later⟩
  · intro options
    obtain ⟨ts, mid, cut, read, -⟩ := Parser.read_of_parse parsed
    obtain ⟨_, rfl, back⟩ :=
      Codec.createTable.written Codec.coherent_createTable (scanned_of_tokenize cut) read
    have all : ∀ name ∈ ct.looseNames, NameOk name := by
      refine List.forall_mem_append.2 ⟨List.forall_mem_append.2 ⟨names, ?_⟩, names'⟩
      rintro name mem
      obtain ⟨o, own, mem⟩ := List.mem_flatMap.1 mem
      exact options o own name mem
    exact ⟨ct, Parser.parse_write_of_readsBack back (CreateTable.spaced_layout ct) rfl
      ⟨all, heads⟩, rfl⟩

/-- A name with a blank in it is written in backquotes, whether it was a string or not. -/
theorem parse_write_options_quoted : ∃ ct : CreateTable,
    CreateTable.parse .mysql
      "create table t (a int) engine 'x y', tablespace \x60u v\x60 storage disk" = .ok ct ∧
    ct.layout.write =
      "CREATE TABLE t (a INT) ENGINE = \x60x y\x60 TABLESPACE \x60u v\x60 STORAGE DISK" ∧
    ∃ again, CreateTable.parse .mysql ct.layout.write = .ok again ∧ again.options = ct.options := by
  have parsed : CreateTable.parse .mysql
      "create table t (a int) engine 'x y', tablespace \x60u v\x60 storage disk" =
      .ok ⟨false, false, ⟨none, "t"⟩, [.column (.bare "a" (.integer ⟨.int, none, false, false⟩))],
        [.engine "x y", .tablespace "u v" (some .disk)], none⟩ :=
    Parser.eq_ok_of_toOption (by decide +kernel)
  exact ⟨_, parsed, by decide +kernel,
    (parse_write_options_iff parsed (by decide) (by decide) (by decide)).2
      (by decide +kernel)⟩

/-- An engine without a name is written as two backquotes, which are no token. -/
theorem parse_write_options_empty : ∃ ct : CreateTable,
    CreateTable.parse .mysql "CREATE TABLE t (a INT) ENGINE = ''" = .ok ct ∧
    ct.options = [.engine ""] ∧
    ct.layout.write = "CREATE TABLE t (a INT) ENGINE = \x60\x60" ∧
    ∀ again, CreateTable.parse .mysql ct.layout.write ≠ .ok again := by
  have parsed : CreateTable.parse .mysql "CREATE TABLE t (a INT) ENGINE = ''" =
      .ok ⟨false, false, ⟨none, "t"⟩, [.column (.bare "a" (.integer ⟨.int, none, false, false⟩))],
        [.engine ""], none⟩ :=
    Parser.eq_ok_of_toOption (by decide +kernel)
  exact ⟨_, parsed, rfl, by decide +kernel, Parser.ne_ok_of_isNone (by decide +kernel)⟩

end CreateTable

end TableDdl
