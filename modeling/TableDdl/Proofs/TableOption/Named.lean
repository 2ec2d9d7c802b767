import TableDdl.Proofs.Layout.Spacing
import TableDdl.Proofs.RoundTrip.TableOptions
import TableDdl.Proofs.TableOption.Clauses

/-!
# Names of table options

Some options have a name that may come from a string literal. It stands right behind the key of
the option, both where the option is read and where it is written, and no other option has a key
with the same first word. So an option is read with the name that stands there.
-/
namespace TableDdl

open Grammar Text

variable {calls : Nat} {c next : Cursor} {o : TableOption} {form : OptionForm} {name : String}
  {words words' : List String} {key key' equals rest rest' : List Token}

namespace TableOption

/-- The forms of the options with such a name, and the words that are written as their keys. -/
def nameForms : List (Fin forms.length × List String) :=
  [(⟨3, by decide⟩, ["CHARACTER", "SET"]), (⟨5, by decide⟩, ["COLLATE"]),
    (⟨13, by decide⟩, ["ENGINE"]), (⟨26, by decide⟩, ["TABLESPACE"])]

variable {i : Fin forms.length}

theorem mem_keys_of_nameForms : ∀ named ∈ nameForms, named.2 ∈ (forms.get named.1).keys := by
  decide

theorem keys_apart : ∀ named ∈ nameForms, ∀ i, ∀ words ∈ (forms.get i).keys,
    (words.head?.any fun word => named.2.head?.any (sameWord word)) = true →
      i = named.1 ∧ words = named.2 := by
  decide +kernel

/-- Tokens that begin with a written key begin with no other key. -/
theorem eq_of_key (named : (i, words) ∈ nameForms) (mem : form ∈ forms)
    (listed : words' ∈ form.keys) (spell : Spell words key) (spell' : Spell words' key')
    (same : key ++ rest = key' ++ rest') : form = forms.get i ∧ key' = key := by
  obtain ⟨j, rfl⟩ := List.mem_iff_get.1 mem
  obtain ⟨t, ts, rfl, -, -⟩ := heads (List.get_mem ..) (mem_keys_of_nameForms _ named) spell
  obtain ⟨t', ts', rfl, -, -⟩ := heads mem listed spell'
  obtain ⟨rfl, -⟩ := List.cons.inj same
  have first : (words'.head?.any fun word => words.head?.any (sameWord word)) = true := by
    cases spell with
    | cons spells _ =>
      cases spell' with
      | cons spells' _ => simpa using Token.sameWord_of_spells spells' spells
  obtain ⟨rfl, rfl⟩ := keys_apart _ named j words' listed first
  have lengths : (t :: ts).length = (t :: ts').length := by
    rw [← spell.length_eq, spell'.length_eq]
  exact ⟨rfl, (List.append_inj same lengths).1.symm⟩

/-- The value of the form begins with the name. -/
theorem looseName_of_value (named : (i, words) ∈ nameForms)
    (read : (forms.get i).value.read calls c = .matched o next) :
    ∃ name mid, looseName.read calls c = .matched name mid ∧ o.looseNames = [name] := by
  have only {f : String → TableOption} (own : ∀ name, (f name).looseNames = [name])
      (read : (f <$> looseName : DdlRule TableOption).read calls c = .matched o next) :
      ∃ name mid, looseName.read calls c = .matched name mid ∧ o.looseNames = [name] := by
    obtain ⟨name, first, rfl⟩ := Rule.map_matched_iff.1 read
    exact ⟨name, next, first, own name⟩
  simp only [nameForms, List.mem_cons, List.not_mem_nil, or_false, Prod.mk.injEq] at named
  rcases named with ⟨rfl, -⟩ | ⟨rfl, -⟩ | ⟨rfl, -⟩ | ⟨rfl, -⟩
  · exact only (fun _ => rfl) read
  · exact only (fun _ => rfl) read
  · exact only (fun _ => rfl) read
  · obtain ⟨_, storage, mid, front, -, rfl⟩ := Rule.seq_matched_iff.1 read
    obtain ⟨name, first, rfl⟩ := Rule.map_matched_iff.1 front
    exact ⟨name, mid, first, rfl⟩

/-- Behind the key and its sign, the option is read as the value of the form. -/
theorem value_of_option (sound : ∀ t ∈ c.rest, t.Sound Keywords.mysql)
    (named : (i, words) ∈ nameForms) (spell : Spell words key) (perhaps : Perhaps "=" equals)
    (whole : c.rest = key ++ equals ++ rest) (other : ∀ t ∈ rest.head?, t.spells "=" = false)
    (read : tableOption.read calls c = .matched o next) :
    (forms.get i).value.read calls ⟨c.pos + key.length + equals.length, rest, c.depth⟩ =
      .matched o next := by
  obtain ⟨form', mem, words', listed, key', equals', rest', spell', perhaps', whole', read⟩ :=
    (tableOption_matched_iff sound).1 read
  have same : key ++ (equals ++ rest) = key' ++ (equals' ++ rest') := by
    rw [← List.append_assoc, ← List.append_assoc, ← whole, ← whole']
  obtain ⟨rfl, rfl⟩ := eq_of_key named mem listed spell spell' same
  have same := List.append_cancel_left same
  rcases perhaps with rfl | ⟨t, rfl, kind, text⟩ <;>
    rcases perhaps' with rfl | ⟨t', rfl, kind', text'⟩
  · obtain rfl : rest = rest' := same
    exact read
  · obtain rfl : rest = t' :: rest' := same
    have sign : t'.spells "=" = true := by simp [Token.spells, Token.isWord, kind', text']
    rw [other t' rfl] at sign
    cases sign
  · obtain rfl : t :: rest = rest' := same
    obtain ⟨name, mid, first, -⟩ := looseName_of_value named read
    have refuses : looseName.refusesSymbol "=" = true := by decide
    have stuck : looseName.FailsHere calls
        ⟨c.pos + key'.length + ([] : List Token).length, t :: rest, c.depth⟩ :=
      Rule.failsHere_of_refusesSymbol refuses kind text rfl
    obtain ⟨f, failed, -⟩ := stuck
    rw [failed] at first
    cases first
  · obtain ⟨-, rfl⟩ := List.cons.inj same
    exact read

end TableOption

theorem looseName_matched {t : Token}
    (accepted : Terminal.identifier.accept Keywords.mysql t = some name) {p depth : Nat} :
    looseName.read calls ⟨p, t :: rest, depth⟩ = .matched name ⟨p + 1, rest, depth⟩ :=
  Rule.either_matched_iff.2 (.inl (token_matched_iff.2 ⟨t, rest, rfl, accepted, rfl⟩))

/-- No comma is read where another token stands. -/
theorem option_of_round {t : Token} (front : c.rest = t :: rest) (other : t.spells "," = false)
    (read : tableOptionRound.read calls c = .matched o next) :
    tableOption.read calls c = .matched o next := by
  obtain ⟨_, mid, comma, option⟩ := Rule.seqRight_matched_iff.1 read
  rcases Rule.optional_matched_iff.1 comma with ⟨_, -, taken⟩ | ⟨-, rfl, -⟩
  · obtain ⟨u, front', spells, -⟩ := literal_matched_iff.1 taken
    obtain ⟨rfl, -⟩ := List.cons.inj (front.symm.trans front')
    rw [other] at spells
    cases spells
  · exact option

/-- The name of an option is that of the token behind its key. -/
theorem looseNames_of_round {t : Token} {i : Fin TableOption.forms.length}
    (sound : ∀ t ∈ c.rest, t.Sound Keywords.mysql)
    (named : (i, words) ∈ TableOption.nameForms) (spell : Spell words key)
    (perhaps : Perhaps "=" equals) (whole : c.rest = key ++ equals ++ t :: rest)
    (accepted : Terminal.identifier.accept Keywords.mysql t = some name)
    (read : tableOptionRound.read calls c = .matched o next) : o.looseNames = [name] := by
  obtain ⟨u, us, front, notComma, -⟩ :=
    TableOption.heads (List.get_mem ..) (TableOption.mem_keys_of_nameForms _ named) spell
  have begins : c.rest = u :: (us ++ equals ++ t :: rest) := by simp [whole, front]
  have option := option_of_round begins notComma read
  have other : ∀ t' ∈ (t :: rest).head?, t'.spells "=" = false := by
    rintro _ ⟨⟩
    cases spells : t.spells "=" with
    | false => rfl
    | true =>
      obtain ⟨kind, -⟩ := Token.operator_of_spells (sound t (by simp [whole])) (by decide)
        spells
      simp [Terminal.accept, kind] at accepted
  have value := TableOption.value_of_option sound named spell perhaps whole other option
  obtain ⟨name', mid, first, own⟩ := TableOption.looseName_of_value named value
  rw [looseName_matched accepted] at first
  obtain ⟨rfl, -⟩ := Outcome.matched.inj first
  exact own

/-- The name is written behind the words of a key, with an equals sign or none between them. -/
structure TableOption.HasName (o : TableOption) (name : String) (words : List String)
    (sign back : Layout) : Prop where
  named : ∃ i, (i, words) ∈ nameForms
  signs : sign = [] ∨ sign = Layout.space ++ Layout.symbol "="
  layout : o.layout = Layout.words words ++ sign ++ Layout.space ++ Layout.name name ++ back

theorem TableOption.exists_hasName (mem : name ∈ o.looseNames) :
    ∃ words sign back, o.HasName name words sign back := by
  have only {words : List String} (named : ∃ i, (i, words) ∈ nameForms)
      (same : o.layout = Layout.setting words (Layout.name name)) :
      ∃ words sign back, o.HasName name words sign back :=
    ⟨words, _, [], named, .inr rfl, by simp [same, Layout.setting]⟩
  have own {name' : String} (mem : name ∈ [name']) : name' = name := (List.mem_singleton.1 mem).symm
  cases o with
  | characterSet name' =>
    obtain rfl := own mem
    exact only ⟨_, .head _⟩ rfl
  | collate name' =>
    obtain rfl := own mem
    exact only ⟨_, .tail _ (.head _)⟩ rfl
  | engine name' =>
    obtain rfl := own mem
    exact only ⟨_, .tail _ (.tail _ (.head _))⟩ rfl
  | tablespace name' storage =>
    obtain rfl := own mem
    exact ⟨_, [], _, ⟨_, .tail _ (.tail _ (.tail _ (.head _)))⟩, .inl rfl, rfl⟩
  | _ => cases mem

/-- The tokens of written words spell these words. -/
theorem spell_words (plain : ∀ word ∈ words, isPlainWord word = true) :
    Spell words (tokensOf (words.map .word)) := by
  induction words with
  | nil => exact .nil
  | cons word words ih =>
    obtain ⟨first, later⟩ := List.forall_mem_cons.1 plain
    refine .cons ?_ (ih later)
    rw [Token.spells, if_pos (isWord_word first)]
    simp [Lexeme.token, Lexeme.text, sameWord_refl]

theorem isPlainWord_of_nameForms :
    ∀ named ∈ TableOption.nameForms, ∀ word ∈ named.2, isPlainWord word = true := by
  decide

/-- Options that read back are written as clauses. -/
theorem exists_clauses {E : Edges} {os : List TableOption}
    (backs : ∀ o ∈ os, tableOptionRound.ReadsBack Parser.calls 0 E o o.written)
    (names : ∀ o ∈ os, ∀ name ∈ o.looseNames, NameOk name)
    (sound : ∀ t ∈ tokensOf (os.flatMap fun o => o.layout.lexemes), t.Sound Keywords.mysql) :
    ∃ clauses, List.Forall₂ OptionClause.Spells clauses os ∧
      clauses.flatMap OptionClause.tokens = tokensOf (os.flatMap fun o => o.layout.lexemes) := by
  induction os with
  | nil => exact ⟨[], .nil, rfl⟩
  | cons o os ih =>
    obtain ⟨back, backs⟩ := List.forall_mem_cons.1 backs
    obtain ⟨own, names⟩ := List.forall_mem_cons.1 names
    rw [List.flatMap_cons, tokensOf_append] at sound ⊢
    obtain ⟨sound, sound'⟩ := List.forall_mem_append.1 sound
    have read := back.takes ⟨own, by simp [TableOption.written]⟩ 0 [] (Avoids.nil _)
    rw [Rule.Takes, List.append_nil] at read
    obtain ⟨clause, spells, whole⟩ := clause_of_round sound rfl read
    obtain ⟨clauses, made, tokens⟩ := ih backs names sound'
    exact ⟨clause :: clauses, .cons spells made,
      by simpa [tokens, TableOption.written] using whole.symm⟩

end TableDdl
