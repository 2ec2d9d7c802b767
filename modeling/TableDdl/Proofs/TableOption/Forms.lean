import TableDdl.Proofs.Grammar.Accepting
import TableDdl.Proofs.Grammar.First
import TableDdl.TableOption

/-!
# Forms of table options

A table option is its key words, an equals sign or none, and a value. No key is the start of
another one, and no value begins with an equals sign, so tokens are read as an option exactly if
they are key words of some form, a sign or none, and a value of that form.
-/
namespace TableDdl

open Grammar Text

variable {α β : Type} {calls : Nat} {c mid next : Cursor}

/-- The tokens spell the words, one each. -/
def Spell (words : List String) (ts : List Token) : Prop :=
  List.Forall₂ (fun word t => t.spells word = true) words ts

/-- At most one token, which is the symbol. -/
def Perhaps (symbol : String) (ts : List Token) : Prop :=
  ts = [] ∨ ∃ t, ts = [t] ∧ t.kind = .operator ∧ t.text = symbol

theorem Token.sameWord_of_spells {t : Token} {v w : String} (hv : t.spells v = true)
    (hw : t.spells w = true) : sameWord v w = true := by
  cases word : t.isWord with
  | true =>
    rw [spells, if_pos word] at hv hw
    rw [← sameWord_congr hv, hw]
  | false =>
    simp only [spells, word, Bool.false_eq_true, if_false, Bool.and_eq_true, beq_iff_eq] at hv hw
    rw [← hv.2, ← hw.2, sameWord_refl]

theorem literal_matched_iff {word x : String} :
    (literal word : DdlRule String).read calls c = .matched x next ↔
      ∃ t, c.rest = t :: next.rest ∧ t.spells word = true ∧ x = word ∧
        next.pos = c.pos + 1 ∧ next.depth = c.depth := by
  constructor
  · intro read
    obtain ⟨t, rest, front, accepted, rfl⟩ := token_matched_iff.1 read
    obtain ⟨spells, same⟩ := Option.ite_none_right_eq_some.1 accepted
    exact ⟨t, front, spells, (Option.some.inj same).symm, rfl, rfl⟩
  · rintro ⟨t, front, spells, rfl, pos, depth⟩
    refine token_matched_iff.2 ⟨t, next.rest, front, if_pos spells, ?_⟩
    rw [← pos, ← depth]

theorem literal_failsHere {word : String} (other : ∀ t ∈ c.rest.head?, t.spells word = false) :
    (literal word : DdlRule String).FailsHere calls c := by
  refine Rule.failsHere_token fun t ht first front => ?_
  obtain rfl := List.mem_singleton.1 ht
  simp [Terminal.accept, other first front]

namespace Rule

/-- The rule does not begin with the word. -/
def refusesWord (r : DdlRule α) (word : String) : Bool :=
  !r.nullable && r.first.any fun ts => ts.all fun
    | .literal other => !sameWord other word
    | _ => false

/-- The rule does not begin with the symbol. -/
def refusesSymbol (r : DdlRule α) (symbol : String) : Bool :=
  !r.nullable && r.first.any fun ts => !ts.contains (.literal symbol)

theorem failsHere_of_refusesWord {r : DdlRule α} {word : String} {t : Token} {rest : List Token}
    (refuses : r.refusesWord word = true) (spells : t.spells word = true)
    (front : c.rest = t :: rest) : r.FailsHere calls c := by
  simp only [refusesWord, Bool.and_eq_true, Bool.not_eq_true', Option.any_eq_true,
    List.all_eq_true] at refuses
  obtain ⟨solid, ts, known, others⟩ := refuses
  refine failsHere_of_avoids known solid fun terminal mem first ht => ?_
  obtain rfl : t = first := by simpa [front] using ht
  have other := others terminal mem
  cases terminal with
  | literal word' =>
    cases spells' : t.spells word' with
    | false => simp [Terminal.accept, spells']
    | true => simp [Token.sameWord_of_spells spells' spells] at other
  | _ => cases other

theorem failsHere_of_refusesSymbol {r : DdlRule α} {symbol : String} {t : Token}
    {rest : List Token} (refuses : r.refusesSymbol symbol = true) (kind : t.kind = .operator)
    (text : t.text = symbol) (front : c.rest = t :: rest) : r.FailsHere calls c := by
  simp only [refusesSymbol, Bool.and_eq_true, Bool.not_eq_true', Option.any_eq_true] at refuses
  obtain ⟨solid, ts, known, others⟩ := refuses
  refine failsHere_of_avoids known solid fun terminal mem first ht => ?_
  obtain rfl : t = first := by simpa [front] using ht
  cases accepted : terminal.accept Keywords.mysql t with
  | none => rfl
  | some x =>
    rw [Terminal.eq_of_accept_operator kind accepted, text] at mem
    simp [mem] at others

end Rule

/-- What the tokens of an option are: one of several keys, and a value. -/
structure OptionForm where
  /-- The words of each key. -/
  keys : List (List String)
  value : DdlRule TableOption

/-- The words for a character set. -/
def charsetWords : List (List String) := [["CHARACTER", "SET"], ["CHARSET"]]

/-- Keys that may have the word `DEFAULT` in front. -/
def withDefault (keys : List (List String)) : List (List String) :=
  keys ++ keys.map ("DEFAULT" :: ·)

/-- The forms of table options, in the order in which they are tried. -/
def TableOption.forms : List OptionForm := [
  ⟨[["AUTOEXTEND_SIZE"]], autoextendSize <$> long⟩,
  ⟨[["AUTO_INCREMENT"]], autoIncrement <$> long⟩,
  ⟨[["AVG_ROW_LENGTH"]], avgRowLength <$> long⟩,
  ⟨withDefault charsetWords, characterSet <$> looseName⟩,
  ⟨[["CHECKSUM"]], checksum <$> long⟩,
  ⟨withDefault [["COLLATE"]], collate <$> looseName⟩,
  ⟨[["COMMENT"]], comment <$> string⟩,
  ⟨[["COMPRESSION"]], compression <$> string⟩,
  ⟨[["CONNECTION"]], connection <$> string⟩,
  ⟨[["DATA", "DIRECTORY"]], dataDirectory <$> string⟩,
  ⟨[["INDEX", "DIRECTORY"]], indexDirectory <$> string⟩,
  ⟨[["DELAY_KEY_WRITE"]], delayKeyWrite <$> long⟩,
  ⟨[["ENCRYPTION"]], encryption <$> string⟩,
  ⟨[["ENGINE"]], engine <$> looseName⟩,
  ⟨[["ENGINE_ATTRIBUTE"]], engineAttribute <$> string⟩,
  ⟨[["INSERT_METHOD"]], insertMethod <$> spelled⟩,
  ⟨[["SECONDARY_ENGINE_ATTRIBUTE"]], secondaryEngineAttribute <$> string⟩,
  ⟨[["KEY_BLOCK_SIZE"]], keyBlockSize <$> long⟩,
  ⟨[["MAX_ROWS"]], maxRows <$> long⟩,
  ⟨[["MIN_ROWS"]], minRows <$> long⟩,
  ⟨[["PACK_KEYS"]], packKeys <$> defaultOr⟩,
  ⟨[["PASSWORD"]], password <$> string⟩,
  ⟨[["ROW_FORMAT"]], rowFormat <$> spelled⟩,
  ⟨[["STATS_AUTO_RECALC"]], statsAutoRecalc <$> defaultOr⟩,
  ⟨[["STATS_PERSISTENT"]], statsPersistent <$> defaultOr⟩,
  ⟨[["STATS_SAMPLE_PAGES"]], statsSamplePages <$> long⟩,
  ⟨[["TABLESPACE"]], tablespace <$> looseName <*> (literal "STORAGE" *> spelled).optional⟩,
  ⟨[["UNION"]], union <$> parenthesized (commaList0 identifier)⟩]

/-- The tokens are read as the option, by a key of the form and its value. -/
def OptionForm.Reads (form : OptionForm) (calls : Nat) (c : Cursor) (o : TableOption)
    (next : Cursor) : Prop :=
  ∃ words ∈ form.keys, ∃ key equals rest, Spell words key ∧ Perhaps "=" equals ∧
    c.rest = key ++ equals ++ rest ∧
    form.value.read calls ⟨c.pos + key.length + equals.length, rest, c.depth⟩ = .matched o next

/-- The rule reads these keys, and nothing else. -/
def Rule.Keyed (r : DdlRule α) (keys : List (List String)) : Prop :=
  ∀ calls c mid, (∃ x, r.read calls c = .matched x mid) ↔ ∃ words ∈ keys, ∃ key,
    Spell words key ∧ c.rest = key ++ mid.rest ∧ mid.pos = c.pos + key.length ∧ mid.depth = c.depth

namespace Rule.Keyed

variable {r : DdlRule α} {s : DdlRule β} {keys others : List (List String)}

theorem literal (word : String) : (literal word).Keyed [[word]] := by
  intro calls c mid
  simp only [literal_matched_iff, List.mem_singleton, exists_eq_left]
  constructor
  · rintro ⟨_, t, front, spells, -, pos, depth⟩
    exact ⟨[t], .cons spells .nil, front, pos, depth⟩
  · rintro ⟨key, spell, front, pos, depth⟩
    cases spell with
    | cons spells none =>
      cases none
      exact ⟨word, _, front, spells, rfl, pos, depth⟩

/-- One word and a key after it. -/
theorem after (word : String) (h : s.Keyed keys) :
    (Grammar.literal word *> s).Keyed (keys.map (word :: ·)) := by
  intro calls c mid
  constructor
  · rintro ⟨x, read⟩
    obtain ⟨_, one, first, second⟩ := seqRight_matched_iff.1 read
    obtain ⟨t, front, spells, -, pos, depth⟩ := literal_matched_iff.1 first
    obtain ⟨words, mem, key, spell, later, pos', depth'⟩ := (h calls one mid).1 ⟨x, second⟩
    refine ⟨_, List.mem_map.2 ⟨words, mem, rfl⟩, t :: key, .cons spells spell, ?_, ?_, ?_⟩
    · rw [front, later, List.cons_append]
    · rw [pos', pos, List.length_cons]
      omega
    · rw [depth', depth]
  · rintro ⟨_, listed, key, spell, front, pos, depth⟩
    obtain ⟨words, mem, rfl⟩ := List.mem_map.1 listed
    cases spell with
    | @cons _ t _ key spells spell =>
      have first : (Grammar.literal word : DdlRule String).read calls c =
          .matched word ⟨c.pos + 1, key ++ mid.rest, c.depth⟩ :=
        literal_matched_iff.2 ⟨t, front, spells, rfl, rfl, rfl⟩
      obtain ⟨y, second⟩ := (h calls ⟨c.pos + 1, key ++ mid.rest, c.depth⟩ mid).2
        ⟨words, mem, key, spell, rfl, by rw [pos, List.length_cons]; simp only; omega, depth⟩
      exact ⟨y, seqRight_matched_iff.2 ⟨word, _, first, second⟩⟩

/-- Two alternatives, where the first does not begin with a word that the second begins with. -/
theorem either {s : DdlRule α} (h : r.Keyed keys) (h' : s.Keyed others)
    (apart : ∀ words ∈ others, words.head?.any r.refusesWord = true) :
    (Rule.either r s).Keyed (keys ++ others) := by
  intro calls c mid
  constructor
  · rintro ⟨x, read⟩
    rcases either_matched_iff.1 read with read | ⟨-, read⟩
    · obtain ⟨words, mem, found⟩ := (h calls c mid).1 ⟨x, read⟩
      exact ⟨words, List.mem_append_left _ mem, found⟩
    · obtain ⟨words, mem, found⟩ := (h' calls c mid).1 ⟨x, read⟩
      exact ⟨words, List.mem_append_right _ mem, found⟩
  · rintro ⟨words, mem, found⟩
    rcases List.mem_append.1 mem with mem | mem
    · obtain ⟨x, read⟩ := (h calls c mid).2 ⟨words, mem, found⟩
      exact ⟨x, either_matched_iff.2 (.inl read)⟩
    · obtain ⟨x, read⟩ := (h' calls c mid).2 ⟨words, mem, found⟩
      obtain ⟨word, first, refuses⟩ := (Option.any_eq_true _ _).1 (apart words mem)
      obtain ⟨key, spell, front, -⟩ := found
      cases spell with
      | nil => cases first
      | cons spells _ =>
        obtain rfl := Option.some.inj first
        exact ⟨x, read_either_of_early (failsHere_of_refusesWord refuses spells front).early read⟩

theorem charsetKeyword : Grammar.charsetKeyword.Keyed charsetWords :=
  (literal "SET").after "CHARACTER" |>.either (literal "CHARSET") (by decide)

end Rule.Keyed

/-- A key and a value are read, with a sign between them or none, if the value cannot begin with
one. -/
theorem setting_matched_iff {key : DdlRule α} {value : DdlRule β} {keys : List (List String)}
    (keyed : key.Keyed keys) (refuses : value.refusesSymbol "=" = true)
    (sound : ∀ t ∈ c.rest, t.Sound Keywords.mysql) {x : β} :
    (setting key value).read calls c = .matched x next ↔
      ∃ words ∈ keys, ∃ ts equals rest, Spell words ts ∧ Perhaps "=" equals ∧
        c.rest = ts ++ equals ++ rest ∧
        value.read calls ⟨c.pos + ts.length + equals.length, rest, c.depth⟩ = .matched x next := by
  constructor
  · intro read
    obtain ⟨k, mid, front, last⟩ := Rule.seqRight_matched_iff.1 read
    obtain ⟨o, one, first, sign⟩ := Rule.seqLeft_matched_iff.1 front
    obtain ⟨words, mem, ts, spell, whole, pos, depth⟩ := (keyed calls c one).1 ⟨_, first⟩
    rcases Rule.optional_matched_iff.1 sign with ⟨y, -, taken⟩ | ⟨-, rfl, -⟩
    · obtain ⟨t, rest, spells, -, pos', depth'⟩ := literal_matched_iff.1 taken
      have mem' : t ∈ c.rest := by simp [whole, rest]
      refine ⟨words, mem, ts, [t], mid.rest, spell, .inr ⟨t, rfl,
        Token.operator_of_spells (sound t mem') (by decide) spells⟩, ?_, ?_⟩
      · rw [whole, rest, List.append_assoc, List.singleton_append]
      · rw [← pos, List.length_singleton, ← pos', ← depth, ← depth']
        exact last
    · refine ⟨words, mem, ts, [], mid.rest, spell, .inl rfl, by simpa using whole, ?_⟩
      rw [← pos, ← depth]
      exact last
  · rintro ⟨words, mem, ts, equals, rest, spell, perhaps, whole, last⟩
    obtain ⟨k, first⟩ := (keyed calls c ⟨c.pos + ts.length, equals ++ rest, c.depth⟩).2
      ⟨words, mem, ts, spell, by rw [whole, List.append_assoc], rfl, rfl⟩
    have sign : ∃ o, (literal "=" : DdlRule String).optional.read calls
        ⟨c.pos + ts.length, equals ++ rest, c.depth⟩ =
          .matched o ⟨c.pos + ts.length + equals.length, rest, c.depth⟩ := by
      rcases perhaps with rfl | ⟨t, rfl, kind, text⟩
      -- Without a sign the value comes next, and it cannot begin with one.
      · refine ⟨none, Rule.read_optional_of_early (literal_failsHere fun t front => ?_).early⟩
        obtain ⟨rest', rfl⟩ : ∃ rest', rest = t :: rest' := List.head?_eq_some_iff.1 front
        cases spells : t.spells "=" with
        | false => rfl
        | true =>
          obtain ⟨kind, text⟩ := Token.operator_of_spells (sound t (by simp [whole]))
            (by decide) spells
          obtain ⟨f, failed, -⟩ := Rule.failsHere_of_refusesSymbol refuses kind text
            (rfl : (⟨c.pos + ts.length + [].length, t :: rest', c.depth⟩ : Cursor).rest = _)
          rw [failed] at last
          cases last
      · have spells : t.spells "=" = true := by simp [Token.spells, Token.isWord, kind, text]
        exact ⟨some "=", Rule.optional_matched_iff.2 (.inl ⟨"=", rfl,
          literal_matched_iff.2 ⟨t, rfl, spells, rfl, rfl, rfl⟩⟩)⟩
    obtain ⟨o, sign⟩ := sign
    exact Rule.seqRight_matched_iff.2
      ⟨k, _, Rule.seqLeft_matched_iff.2 ⟨o, _, first, sign⟩, last⟩

namespace OptionForm

variable {form : OptionForm} {r s : DdlRule TableOption} {o : TableOption}

/-- What the rule reads is what the form reads. -/
def Describes (form : OptionForm) (r : DdlRule TableOption) : Prop :=
  ∀ {calls : Nat} {c next : Cursor} {o : TableOption}, (∀ t ∈ c.rest, t.Sound Keywords.mysql) →
    (r.read calls c = .matched o next ↔ form.Reads calls c o next)

/-- The rule fails early on every key of the form. -/
def Refused (form : OptionForm) (r : DdlRule TableOption) : Prop :=
  ∀ words ∈ form.keys, ∀ {calls : Nat} {c : Cursor} {key rest : List Token},
    Spell words key → c.rest = key ++ rest → r.FailsEarly calls c

theorem describes_setting {key : DdlRule α} {value : DdlRule β} {keys : List (List String)}
    (keyed : key.Keyed keys) (f : β → TableOption) (refuses : value.refusesSymbol "=" = true) :
    Describes ⟨keys, f <$> value⟩ (f <$> setting key value) := by
  intro calls c next o sound
  constructor
  · intro read
    obtain ⟨x, inner, same⟩ := Rule.map_matched_iff.1 read
    obtain ⟨words, mem, ts, equals, rest, spell, perhaps, whole, last⟩ :=
      (setting_matched_iff keyed refuses sound).1 inner
    exact ⟨words, mem, ts, equals, rest, spell, perhaps, whole,
      Rule.map_matched_iff.2 ⟨x, last, same⟩⟩
  · rintro ⟨words, mem, ts, equals, rest, spell, perhaps, whole, read⟩
    obtain ⟨x, last, same⟩ := Rule.map_matched_iff.1 read
    exact Rule.map_matched_iff.2 ⟨x, (setting_matched_iff keyed refuses sound).2
      ⟨words, mem, ts, equals, rest, spell, perhaps, whole, last⟩, same⟩

/-- The same where something more follows the value. -/
theorem describes_setting_seq {γ : Type} {key : DdlRule α} {value : DdlRule β} {more : DdlRule γ}
    {keys : List (List String)} (keyed : key.Keyed keys) (f : β → γ → TableOption)
    (refuses : value.refusesSymbol "=" = true) :
    Describes ⟨keys, f <$> value <*> more⟩ (f <$> setting key value <*> more) := by
  intro calls c next o sound
  constructor
  · intro read
    obtain ⟨_, y, mid, first, second, same⟩ := Rule.seq_matched_iff.1 read
    obtain ⟨x, inner, rfl⟩ := Rule.map_matched_iff.1 first
    obtain ⟨words, mem, ts, equals, rest, spell, perhaps, whole, last⟩ :=
      (setting_matched_iff keyed refuses sound).1 inner
    exact ⟨words, mem, ts, equals, rest, spell, perhaps, whole, Rule.seq_matched_iff.2
      ⟨f x, y, mid, Rule.map_matched_iff.2 ⟨x, last, rfl⟩, second, same⟩⟩
  · rintro ⟨words, mem, ts, equals, rest, spell, perhaps, whole, read⟩
    obtain ⟨_, y, mid, first, second, same⟩ := Rule.seq_matched_iff.1 read
    obtain ⟨x, last, rfl⟩ := Rule.map_matched_iff.1 first
    exact Rule.seq_matched_iff.2 ⟨f x, y, mid, Rule.map_matched_iff.2
      ⟨x, (setting_matched_iff keyed refuses sound).2
        ⟨words, mem, ts, equals, rest, spell, perhaps, whole, last⟩, rfl⟩, second, same⟩

theorem describes_perhapsDefault {key : DdlRule α} {value : DdlRule β} {keys : List (List String)}
    (keyed : key.Keyed keys) (f : β → TableOption) (refuses : value.refusesSymbol "=" = true)
    (apart : ∀ words ∈ keys, words.head?.any (literal "DEFAULT" : DdlRule String).refusesWord) :
    Describes ⟨withDefault keys, f <$> value⟩ (f <$> perhapsDefault (setting key value)) := by
  intro calls c next o sound
  constructor
  · intro read
    obtain ⟨x, inner, same⟩ := Rule.map_matched_iff.1 read
    obtain ⟨_, mid, default, second⟩ := Rule.seqRight_matched_iff.1 inner
    rcases Rule.optional_matched_iff.1 default with ⟨_, -, taken⟩ | ⟨-, rfl, -⟩
    · obtain ⟨t, front, spells, -, pos, depth⟩ := literal_matched_iff.1 taken
      obtain ⟨words, mem, ts, equals, rest, spell, perhaps, whole, last⟩ :=
        (setting_matched_iff keyed refuses fun t ht => sound t (by simp [front, ht])).1 second
      refine ⟨_, List.mem_append_right _ (List.mem_map.2 ⟨words, mem, rfl⟩), t :: ts, equals, rest,
        .cons spells spell, perhaps, by simp [front, whole], Rule.map_matched_iff.2 ⟨_, ?_, same⟩⟩
      rw [← last, pos, depth, List.length_cons]
      congr 2
      omega
    · obtain ⟨words, mem, ts, equals, rest, spell, perhaps, whole, last⟩ :=
        (setting_matched_iff keyed refuses sound).1 second
      exact ⟨words, List.mem_append_left _ mem, ts, equals, rest, spell, perhaps, whole,
        Rule.map_matched_iff.2 ⟨_, last, same⟩⟩
  -- Conversely, a key of its own does not begin with `DEFAULT`, so the optional word is left out.
  · rintro ⟨words, listed, ts, equals, rest, spell, perhaps, whole, read⟩
    obtain ⟨x, last, same⟩ := Rule.map_matched_iff.1 read
    rcases List.mem_append.1 listed with mem | prefixed
    · have second := (setting_matched_iff keyed refuses sound).2
        ⟨words, mem, ts, equals, rest, spell, perhaps, whole, last⟩
      obtain ⟨word, first, refuses'⟩ := (Option.any_eq_true _ _).1 (apart words mem)
      cases spell with
      | nil => cases first
      | cons spells _ =>
        obtain rfl := Option.some.inj first
        have absent : (literal "DEFAULT" : DdlRule String).optional.read calls c = .matched none c :=
          Rule.read_optional_of_early (Rule.failsHere_of_refusesWord refuses' spells whole).early
        exact Rule.map_matched_iff.2
          ⟨x, Rule.seqRight_matched_iff.2 ⟨none, c, absent, second⟩, same⟩
    · obtain ⟨words, mem, rfl⟩ := List.mem_map.1 prefixed
      cases spell with
      | @cons _ t _ ts spells spell =>
        have default : (literal "DEFAULT" : DdlRule String).optional.read calls c =
            .matched (some "DEFAULT") ⟨c.pos + 1, ts ++ equals ++ rest, c.depth⟩ :=
          Rule.optional_matched_iff.2 (.inl ⟨_, rfl,
            literal_matched_iff.2 ⟨t, by simp [whole], spells, rfl, rfl, rfl⟩⟩)
        have place : c.pos + (t :: ts).length + equals.length =
            c.pos + 1 + ts.length + equals.length := by
          rw [List.length_cons]
          omega
        rw [place] at last
        have second := (setting_matched_iff (c := ⟨c.pos + 1, ts ++ equals ++ rest, c.depth⟩) keyed
          refuses fun u hu => sound u (by rw [whole]; exact List.mem_cons_of_mem _ hu)).2
            ⟨words, mem, ts, equals, rest, spell, perhaps, rfl, last⟩
        exact Rule.map_matched_iff.2
          ⟨x, Rule.seqRight_matched_iff.2 ⟨_, _, default, second⟩, same⟩

/-- Keys that begin with other words are refused. -/
theorem refused_of_words
    (apart : (form.keys.all fun words => words.head?.any r.refusesWord) = true) :
    form.Refused r := by
  intro words mem calls c key rest spell front
  obtain ⟨word, first, refuses⟩ :=
    (Option.any_eq_true _ _).1 (List.all_eq_true.1 apart words mem)
  cases spell with
  | nil => cases first
  | cons spells _ =>
    obtain rfl := Option.some.inj first
    exact (Rule.failsHere_of_refusesWord refuses spells front).early

/-- The key of a collation fails after `DEFAULT` where that of a character set is asked for. -/
theorem refused_default {key : DdlRule α} {value : DdlRule β} {word : String}
    (f : β → TableOption) (refuses : (setting key value).refusesWord word = true)
    (refuses' : (f <$> perhapsDefault (setting key value)).refusesWord word = true)
    {valueRule : DdlRule TableOption} :
    Refused ⟨withDefault [[word]], valueRule⟩ (f <$> perhapsDefault (setting key value)) := by
  intro words mem calls c ts rest spell front
  rcases List.mem_cons.1 mem with rfl | mem
  · cases spell with
    | cons spells _ => exact (Rule.failsHere_of_refusesWord refuses' spells front).early
  · obtain rfl : words = ["DEFAULT", word] := List.mem_singleton.1 mem
    cases spell with
    | @cons _ t _ us spells spell =>
      cases spell with
      | @cons _ u _ vs spells' _ =>
        have default : (literal "DEFAULT" : DdlRule String).optional.read calls c =
            .matched (some "DEFAULT") ⟨c.pos + 1, u :: vs ++ rest, c.depth⟩ :=
          Rule.optional_matched_iff.2 (.inl ⟨_, rfl,
            literal_matched_iff.2 ⟨t, by simp [front], spells, rfl, rfl, rfl⟩⟩)
        have stuck : (setting key value).FailsHere calls ⟨c.pos + 1, u :: vs ++ rest, c.depth⟩ :=
          Rule.failsHere_of_refusesWord refuses spells' rfl
        exact ((Rule.FailsEarly.both_of_matched default (Nat.le_refl _) stuck).map Prod.snd).map f

/-- The rule is the choice among rules of the forms, in this order. -/
inductive Choice : List OptionForm → DdlRule TableOption → Prop
  | last {form : OptionForm} {r : DdlRule TableOption} : form.Describes r → Choice [form] r
  | more {form : OptionForm} {forms : List OptionForm} {r s : DdlRule TableOption} :
    form.Describes r → (∀ other ∈ forms, other.Refused r) → Choice forms s →
    Choice (form :: forms) (.either r s)

theorem refused_of_all {forms : List OptionForm} (apart : (forms.all fun form =>
    form.keys.all fun words => words.head?.any r.refusesWord) = true) :
    ∀ other ∈ forms, other.Refused r := fun other mem =>
  refused_of_words (List.all_eq_true.1 apart other mem)

theorem Choice.matched_iff {forms : List OptionForm} (h : Choice forms r)
    (sound : ∀ t ∈ c.rest, t.Sound Keywords.mysql) :
    r.read calls c = .matched o next ↔ ∃ form ∈ forms, form.Reads calls c o next := by
  induction h with
  | last describes => simpa using describes sound
  | @more form forms r s describes refused _ ih =>
    rw [Rule.either_matched_iff, describes sound, ih]
    simp only [List.mem_cons, exists_eq_or_imp]
    constructor
    · rintro (found | ⟨-, found⟩)
      · exact .inl found
      · exact .inr found
    · rintro (found | ⟨other, mem, found⟩)
      · exact .inl found
      · refine .inr ⟨?_, other, mem, found⟩
        obtain ⟨words, listed, key, equals, rest, spell, -, whole, -⟩ := found
        exact refused other mem words listed spell (by rw [whole, List.append_assoc])

end OptionForm

open OptionForm in
theorem choice_forms : Choice TableOption.forms tableOption := by
  have single {β : Type} {value : DdlRule β} (word : String) (f : β → TableOption)
      (refuses : value.refusesSymbol "=" = true) :
      Describes ⟨[[word]], f <$> value⟩ (f <$> setting (literal word) value) :=
    describes_setting (.literal word) f refuses
  iterate 3 refine .more (single _ _ (by decide)) (refused_of_all (by decide)) ?_
  refine .more (describes_perhapsDefault .charsetKeyword _ (by decide) (by decide))
    (List.forall_mem_cons.2 ⟨refused_of_words (by decide), List.forall_mem_cons.2
      ⟨refused_default _ (by decide) (by decide),
        refused_of_all (by decide)⟩⟩) ?_
  refine .more (single _ _ (by decide)) (refused_of_all (by decide)) ?_
  refine .more (describes_perhapsDefault (.literal _) _ (by decide) (by decide))
    (refused_of_all (by decide)) ?_
  iterate 3 refine .more (single _ _ (by decide)) (refused_of_all (by decide)) ?_
  refine .more (describes_setting ((Rule.Keyed.literal _).after _) _ (by decide))
    (refused_of_all (by decide)) ?_
  refine .more (describes_setting ((Rule.Keyed.literal _).after _) _ (by decide))
    (refused_of_all (by decide)) ?_
  iterate 15 refine .more (single _ _ (by decide)) (refused_of_all (by decide)) ?_
  refine .more (describes_setting_seq (.literal _) _ (by decide))
    (refused_of_all (by decide)) ?_
  exact .last (single _ _ (by decide))

/-- Tokens are read as a table option exactly as one of the forms reads them. -/
theorem tableOption_matched_iff (sound : ∀ t ∈ c.rest, t.Sound Keywords.mysql) {o : TableOption} :
    tableOption.read calls c = .matched o next ↔
      ∃ form ∈ TableOption.forms, form.Reads calls c o next :=
  choice_forms.matched_iff sound

end TableDdl
