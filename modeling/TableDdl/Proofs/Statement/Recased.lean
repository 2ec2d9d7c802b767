import TableDdl.Proofs.Keyword.Extension
import TableDdl.Proofs.Statement.Carries
import TableDdl.Proofs.Token.Recased
import TableDdl.Proofs.Token.Tiling

/-!
# Texts in another letter case

The letters of unquoted words may be written in any case. Main statement: with other letters of
the same words, a text is rejected at the same place with the same expectations, or it is accepted
with a tree that is the same up to the case of names; where only reserved words are written in
another way, the tree is the same.
-/
namespace TableDdl

open Text

variable {keywords : Keywords} {changes : Token → Bool} {text text' : String}
  {ts ts' : List Token} {t t' : Token}

/-- The place before which the text has `n` bytes is in the token. -/
def Token.Covers (t : Token) (n : Nat) : Prop :=
  t.position.offset ≤ n ∧ n < t.position.offset + byteLength t.text.toList

instance (t : Token) (n : Nat) : Decidable (t.Covers n) :=
  inferInstanceAs (Decidable (_ ∧ _))

/-- The second text is the first with some letters in another case, all of them in tokens with
the property. -/
structure Recased (keywords : Keywords) (changes : Token → Bool) (text text' : String) : Prop where
  same : sameWord text text' = true
  within : ∀ ts, tokenize keywords text = .ok ts → ∀ i < text.toList.length,
    text.toList[i]? ≠ text'.toList[i]? →
      ∃ t ∈ ts, changes t = true ∧ t.Covers (byteLength (text.toList.take i))

/-- The token in another case, at the same place; only tokens with the property change. -/
structure Token.Recased (changes : Token → Bool) (t t' : Token) : Prop where
  kind : t'.kind = t.kind
  position : t'.position = t.position
  text : sameWord t'.text t.text = true
  fixed : changes t = false → t'.text = t.text

theorem Text.byteLength_toUpper (cs : List Char) :
    byteLength (cs.map Char.toUpper) = byteLength cs := by
  induction cs with
  | nil => rfl
  | cons c cs ih => rw [List.map_cons, byteLength_cons, byteLength_cons, utf8Size_toUpper, ih]

/-- Parts of the same text in two cases that have the same bytes have the same characters. -/
theorem Text.length_eq_of_byteLength_eq {a b a' b' : List Char}
    (same : (a ++ b).map Char.toUpper = (a' ++ b').map Char.toUpper)
    (long : byteLength a = byteLength a') : a.length = a'.length := by
  rw [List.map_append, List.map_append] at same
  have upper := takeBytes_byteLength_append (a.map Char.toUpper) (b.map Char.toUpper)
  rw [same, byteLength_toUpper, long, ← byteLength_toUpper, takeBytes_byteLength_append] at upper
  simpa using (congrArg List.length upper).symm

/-- Tokens of one text do not overlap. -/
theorem Tiled.eq_of_covers {rest front : List Char} {p : Position} {n : Nat}
    (tiled : Tiled keywords rest p front ts) (ht : t ∈ ts) (ht' : t' ∈ ts) (here : t.Covers n)
    (here' : t'.Covers n) : t = t' := by
  by_contra different
  have either : t.position.offset + byteLength t.text.toList ≤ t'.position.offset ∨
      t'.position.offset + byteLength t'.text.toList ≤ t.position.offset := by
    have apart : ts.Pairwise fun t u => t.position.offset + byteLength t.text.toList ≤
        u.position.offset ∨ u.position.offset + byteLength u.text.toList ≤ t.position.offset :=
      tiled.apart.imp .inl
    have : Std.Symm fun t u : Token => t.position.offset + byteLength t.text.toList ≤
        u.position.offset ∨ u.position.offset + byteLength u.text.toList ≤ t.position.offset :=
      ⟨fun _ _ => Or.symm⟩
    exact apart.forall ht ht' different
  obtain ⟨start, stop⟩ := here
  obtain ⟨start', stop'⟩ := here'
  omega

/-- A token that holds none of the changed letters has the same text. -/
theorem Recased.text_eq (re : Recased keywords changes text text')
    (cut : tokenize keywords text = .ok ts) (tiled : Tiled keywords [] .start text.toList ts)
    (tiled' : Tiled keywords [] .start text'.toList ts') (ht : t ∈ ts) (ht' : t' ∈ ts')
    (same : t.upper = t'.upper) (kept : changes t = false) : t'.text = t.text := by
  obtain ⟨front, later, whole, place⟩ := tiled.divides t ht
  obtain ⟨front', later', whole', place'⟩ := tiled'.divides t' ht'
  have upper : t.text.toList.map Char.toUpper = t'.text.toList.map Char.toUpper :=
    sameWord_iff.1 (by simpa [sameWord, Token.upper] using congrArg Token.text same)
  have start : t.position.offset = byteLength front := by
    rw [place, Position.offset_after]
    exact Nat.zero_add _
  have long : front.length = front'.length := by
    have bytes : byteLength front = byteLength front' := by
      have := congrArg (fun t => t.position.offset) same
      simpa [Token.upper, place, place', Position.offset_after] using this
    have whole_upper := sameWord_iff.1 re.same
    rw [whole, whole'] at whole_upper
    exact length_eq_of_byteLength_eq whole_upper bytes
  have size : t.text.toList.length = t'.text.toList.length := by
    simpa using congrArg List.length upper
  -- A differing letter of `t` lies in some token that may change. That token covers the same place
  -- as `t`, so it is `t`.
  refine String.toList_inj.1 (List.ext_getElem? fun i => ?_)
  by_contra different
  have inside : i < t.text.toList.length := by
    by_contra beyond
    have beyond' : t'.text.toList.length ≤ i := by omega
    rw [List.getElem?_eq_none beyond', List.getElem?_eq_none (by omega)] at different
    exact different rfl
  have char : text.toList[front.length + i]? = t.text.toList[i]? := by
    rw [whole, List.getElem?_append_right (by omega), Nat.add_sub_cancel_left,
      List.getElem?_append_left inside]
  have char' : text'.toList[front.length + i]? = t'.text.toList[i]? := by
    rw [whole', long, List.getElem?_append_right (by omega), Nat.add_sub_cancel_left,
      List.getElem?_append_left (by omega)]
  obtain ⟨u, hu, changed, covers⟩ := re.within ts cut (front.length + i) (by
    rw [whole, List.length_append, List.length_append]
    omega) (by rw [char, char']; exact fun h => different h.symm)
  have before : text.toList.take (front.length + i) = front ++ t.text.toList.take i := by
    rw [whole, List.take_length_add_append, List.take_append_of_le_length (by omega)]
  have here : t.Covers (byteLength (text.toList.take (front.length + i))) := by
    have parts := congrArg byteLength (List.take_append_drop i t.text.toList)
    have left : 0 < byteLength (t.text.toList.drop i) := by
      rw [List.drop_eq_getElem_cons inside, byteLength_cons]
      exact Nat.add_pos_left (Char.utf8Size_pos _) _
    rw [byteLength_append] at parts
    rw [before, byteLength_append, Token.Covers, start]
    omega
  obtain rfl := tiled.eq_of_covers ht hu here covers
  rw [kept] at changed
  cases changed

theorem Tiled.of_tokenize (cut : tokenize keywords text = .ok ts) :
    Tiled keywords [] .start text.toList ts := by
  obtain ⟨front, rest, us, whole, tiled, answer⟩ :=
    Tiled.of_tokensFrom keywords true .start text.toList
  rcases answer with ⟨rfl, tokens⟩ | ⟨-, -, error⟩
  · obtain rfl : us = ts := Except.ok.inj (tokens.symm.trans cut)
    rwa [whole, List.append_nil]
  · cases error.symm.trans cut

theorem lexical_of_tokenize {e : Error} (error : tokenize keywords text = .error e) :
    ∃ p found, e = .lexical p found := by
  obtain ⟨front, rest, us, -, -, answer⟩ := Tiled.of_tokensFrom keywords true .start text.toList
  rcases answer with ⟨-, tokens⟩ | ⟨-, -, found⟩
  · cases tokens.symm.trans error
  · exact ⟨_, _, (Except.error.inj (found.symm.trans error)).symm⟩

/-- The tokens in another case, or an error at the same place. -/
theorem Recased.tokenize (re : Recased keywords changes text text') :
    (∃ ts ts', tokenize keywords text = .ok ts ∧ tokenize keywords text' = .ok ts' ∧
      List.Forall₂ (Token.Recased changes) ts ts') ∨
    ∃ p found found', tokenize keywords text = .error (.lexical p found) ∧
      tokenize keywords text' = .error (.lexical p found') := by
  -- The texts have the same upper case, and upper case is kept when a text is cut into tokens.
  have upper : upperTokens (TableDdl.tokenize keywords text) =
      upperTokens (TableDdl.tokenize keywords text') := by
    rw [TableDdl.tokenize, TableDdl.tokenize, ← tokensFrom_toUpper, ← tokensFrom_toUpper,
      sameWord_iff.1 re.same]
  cases cut : TableDdl.tokenize keywords text with
  | error e =>
    obtain ⟨p, found, rfl⟩ := lexical_of_tokenize cut
    cases cut' : TableDdl.tokenize keywords text' with
    | error e' =>
      obtain ⟨p', found', rfl⟩ := lexical_of_tokenize cut'
      obtain ⟨rfl, -⟩ : p = p' ∧ _ := by simpa [cut, cut', upperTokens] using upper
      exact .inr ⟨p, found, found', rfl, rfl⟩
    | ok ts' => simp [cut, cut', upperTokens] at upper
  | ok ts =>
    cases cut' : TableDdl.tokenize keywords text' with
    | error e' =>
      obtain ⟨p', found', rfl⟩ := lexical_of_tokenize cut'
      simp [cut, cut', upperTokens] at upper
    | ok ts' =>
      have tokens : ts.map Token.upper = ts'.map Token.upper := by
        simpa [cut, cut', upperTokens] using upper
      obtain ⟨long, pairs⟩ := List.forall₂_iff_zip.1 (forall₂_sameUnder.2 tokens)
      refine .inl ⟨ts, ts', rfl, rfl, List.forall₂_iff_zip.2 ⟨long, fun {t t'} mem => ?_⟩⟩
      obtain ⟨ht, ht'⟩ := List.of_mem_zip mem
      have same : t.upper = t'.upper := pairs mem
      exact ⟨(congrArg Token.kind same).symm, (congrArg Token.position same).symm,
        by simpa [sameWord, Token.upper] using (congrArg Token.text same).symm,
        re.text_eq cut (.of_tokenize cut) (.of_tokenize cut') ht ht' same⟩

theorem Position.endOf_eq_of_sameWord (same : sameWord text text' = true) :
    Position.endOf text' = Position.endOf text := by
  rw [endOf, endOf, ← after_toUpper, ← after_toUpper _ text.toList, sameWord_iff.1 same]

namespace Token.Recased

theorem mono {changes' : Token → Bool} (re : t.Recased changes t')
    (more : ∀ t, changes t = true → changes' t = true) : t.Recased changes' t' := by
  refine ⟨re.kind, re.position, re.text, fun kept => re.fixed ?_⟩
  cases changed : changes t with
  | true => rw [more t changed] at kept; cases kept
  | false => rfl

theorem eq_of_fixed (re : t.Recased changes t') (kept : changes t = false) : t' = t := by
  obtain ⟨kind, text, position⟩ := t
  obtain ⟨kind', text', position'⟩ := t'
  obtain rfl : kind' = kind := re.kind
  obtain rfl : position' = position := re.position
  obtain rfl : text' = text := re.fixed kept
  rfl

theorem head (re : t.Recased changes t') :
    t'.text.toList.head? = some '\x60' ↔ t.text.toList.head? = some '\x60' := by
  have upper := congrArg List.head? (sameWord_iff.1 re.text)
  rw [List.head?_map, List.head?_map] at upper
  have mark (c : Char) : c.toUpper = '\x60' ↔ c = '\x60' := toUpper_eq_iff (by decide)
  have under (o : Option Char) : o.map Char.toUpper = some '\x60' ↔ o = some '\x60' := by
    cases o <;> simp [mark]
  rw [← under, upper, under]

theorem isWord (re : t.Recased changes t') : t'.isWord = t.isWord := by
  have marks : (t'.text.toList.head? != some '\x60') = (t.text.toList.head? != some '\x60') := by
    simp only [bne, beq_eq_decide, re.head]
  simp only [Token.isWord, re.kind, marks]

/-- A word in another case is the same to all terminals for words and operators. -/
theorem accept_eq (re : t.Recased Token.isWord t') {terminal : Terminal}
    (other : terminal ≠ .identifier) :
    terminal.accept keywords t' = terminal.accept keywords t := by
  cases word : t.isWord with
  | false => rw [re.eq_of_fixed word]
  | true =>
    have word' : t'.isWord = true := re.isWord.trans word
    cases terminal with
    | literal literal =>
      simp only [Terminal.accept, spells, word, word', if_true, sameWord_congr re.text]
    | identifier => exact absurd rfl other
    | string =>
      have kind : t.kind ≠ .string := by
        intro kind
        simp [Token.isWord, kind] at word
      simp only [Terminal.accept, re.kind, kind, if_false]
    | number =>
      have kind : t.kind ≠ .number := by
        intro kind
        simp [Token.isWord, kind] at word
      simp only [Terminal.accept, re.kind, kind, if_false]

theorem alike {f : String → String} (re : t.Recased Token.isWord t')
    (names : f t.text = f t'.text) : t.Alike keywords f t' := by
  refine ⟨fun terminal other => re.accept_eq other, ?_⟩
  cases word : t.isWord with
  | false => rw [re.eq_of_fixed word]
  | true =>
    simp only [Terminal.accept, re.kind, Text.isReserved_congr re.text]
    cases kind : t.kind with
    | identifier =>
      have bare : t.text.toList.head? ≠ some '\x60' := by simpa [Token.isWord, kind] using word
      have bare' : t'.text.toList.head? ≠ some '\x60' := fun mark => bare (re.head.1 mark)
      simp [Terminal.unquote, bare, bare', names]
    | keyword =>
      simp only
      split <;> simp [names]
    | number | string | operator => rfl

/-- A reserved word in another case is the same to all terminals. -/
theorem accept_eq_of_reserved (sound : t.Sound keywords)
    (re : t.Recased (fun t => t.isWord && keywords.isReserved t.text) t') (terminal : Terminal) :
    terminal.accept keywords t' = terminal.accept keywords t := by
  cases changed : t.isWord && keywords.isReserved t.text with
  | false => rw [re.eq_of_fixed changed]
  | true =>
    obtain ⟨word, reserved⟩ := Bool.and_eq_true_iff.1 changed
    have re' : t.Recased Token.isWord t' := re.mono fun t both => (Bool.and_eq_true_iff.1 both).1
    by_cases name : terminal = .identifier
    · subst name
      have keyword : t.kind = .keyword := by
        have known : keywords.isKeyword t.text = true := by
          rw [Keywords.isReserved_eq, Bool.and_eq_true] at reserved
          exact reserved.1
        unfold Token.Sound at sound
        unfold Token.isWord at word
        cases kind : t.kind with
        | keyword => rfl
        | identifier =>
          rw [kind] at sound word
          rcases sound with ⟨-, unknown⟩ | ⟨name, quoted, -⟩
          · rw [known] at unknown
            cases unknown
          · simp [quoted] at word
        | number | string | operator =>
          rw [kind] at word
          cases word
      simp [Terminal.accept, re.kind, keyword, Text.isReserved_congr re.text, reserved]
    · exact re'.accept_eq name

theorem positions (pairs : List.Forall₂ (Token.Recased changes) ts ts') :
    ts'.map Token.position = ts.map Token.position :=
  (forall₂_sameUnder.1 (pairs.imp fun _ _ re => re.position.symm)).symm

end Token.Recased

/-- Values that are related, or an error of the same class at the same place with the same
expectations. -/
inductive SameAnswer {α : Type} (S : α → α → Prop) : Except Error α → Except Error α → Prop
  | accepted {x y : α} (value : S x y) : SameAnswer S (.ok x) (.ok y)
  | unexpected (p : Position) (expected : List String) (found found' : String) :
    SameAnswer S (.error (.unexpected p expected found)) (.error (.unexpected p expected found'))
  | lexical (p : Position) (found found' : String) :
    SameAnswer S (.error (.lexical p found)) (.error (.lexical p found'))

namespace Parser

variable {α : Type} {S : α → α → Prop} {R : Token → Token → Prop} {rule : DdlRule α}

theorem sameAnswer_unexpected (places : ts'.map Token.position = ts.map Token.position)
    (ends : Position.endOf text' = Position.endOf text) (f : Failure) :
    SameAnswer S (.error (unexpected text ts f)) (.error (unexpected text' ts' f)) := by
  have place := congrArg (·[f.pos]?) places
  simp only [List.getElem?_map] at place
  have same : (foundAt text' ts' f.pos).1 = (foundAt text ts f.pos).1 := by
    revert place
    simp only [foundAt]
    cases ts'[f.pos]? <;> cases ts[f.pos]? <;> simp [ends]
  simp only [unexpected, same]
  exact .unexpected ..

/-- Runs that are related give the same answer. -/
theorem parseTokens_related
    (runs : Engine.RelatedAnswer R S ((Engine.standard keywords).outcome rule ts none)
      ((Engine.standard keywords).outcome rule ts' none))
    (places : ts'.map Token.position = ts.map Token.position)
    (ends : Position.endOf text' = Position.endOf text) :
    SameAnswer S (parseTokens keywords rule text ts) (parseTokens keywords rule text' ts') := by
  obtain ⟨outcome, notes⟩ := runs
  rcases first : (Engine.standard keywords).outcome rule ts none with ⟨o, furthest⟩
  rcases second : (Engine.standard keywords).outcome rule ts' none with ⟨o', furthest'⟩
  rw [first, second] at outcome notes
  obtain rfl : furthest' = furthest := notes
  simp only [parseTokens, first, second]
  cases outcome with
  | matched value _ => exact .accepted value
  | failed f => exact sameAnswer_unexpected places ends _
  | diverged => exact sameAnswer_unexpected places ends _

end Parser

/-- The words of the text that the other text writes in another way, and these other ways. -/
def changedWords (keywords : Keywords) (text text' : String) : List String :=
  match tokenize keywords text, tokenize keywords text' with
  | .ok ts, .ok ts' => (ts.zip ts').flatMap fun (t, t') =>
    if t.text = t'.text then [] else [t.text, t'.text]
  | _, _ => []

/-- The name in upper case where it is one of the words; any other name as it is. -/
def upperAmong (words : List String) (name : String) : String :=
  if name ∈ words then upper name else name

theorem Token.Recased.upperAmong_eq (re : t.Recased changes t') {words : List String}
    (listed : t.text ≠ t'.text → t.text ∈ words ∧ t'.text ∈ words) :
    upperAmong words t.text = upperAmong words t'.text := by
  by_cases same : t.text = t'.text
  · rw [same]
  · obtain ⟨mem, mem'⟩ := listed same
    rw [upperAmong, upperAmong, if_pos mem, if_pos mem', upper_eq_of_sameWord re.text]

namespace EntryPoint

variable {α : Type} (entry : EntryPoint α)

theorem parseTokens_alike {f : String → String} (alike : List.Forall₂ (Token.Alike keywords f) ts ts')
    (places : ts'.map Token.position = ts.map Token.position)
    (ends : Position.endOf text' = Position.endOf text) :
    SameAnswer (SameUnder (entry.renamed f)) (Parser.parseTokens keywords entry.rule text ts)
      (Parser.parseTokens keywords entry.rule text' ts') := by
  have carries (calls : Nat) :
      entry.rule.statement.Carries keywords f calls (SameUnder (entry.renamed f)) :=
    ((entry.carries keywords f calls).seqLeft (.of_nameless rfl)).seqLeft (.of_nameless rfl)
  have start : (Cursor.start ts).Paired (Token.Alike keywords f) (.start ts') := ⟨rfl, rfl, alike⟩
  exact Parser.parseTokens_related (carries _ start) places ends

theorem parseTokens_of_reserved (sound : ∀ t ∈ ts, t.Sound keywords)
    (pairs : List.Forall₂ (Token.Recased fun t => t.isWord && keywords.isReserved t.text) ts ts')
    (ends : Position.endOf text' = Position.endOf text) :
    SameAnswer Eq (Parser.parseTokens keywords entry.rule text ts)
      (Parser.parseTokens keywords entry.rule text' ts') := by
  let R (t t' : Token) : Prop := ∀ terminal : Terminal,
    terminal.accept keywords t' = terminal.accept (Engine.standard keywords).keywords t
  have same : List.Forall₂ R ts ts' := by
    obtain ⟨long, each⟩ := List.forall₂_iff_zip.1 pairs
    exact List.forall₂_iff_zip.2 ⟨long, fun mem =>
      (each mem).accept_eq_of_reserved (sound _ (List.of_mem_zip mem).1)⟩
  have start : (Cursor.start ts).Paired R (.start ts') := ⟨rfl, rfl, same⟩
  have runs := (Engine.same_relation (R := R) (Engine.standard keywords) keywords Nonterminal.rule
    (fun name => Rule.uses_true name.rule) fun _ _ h terminal _ => h terminal).run
      (Nonterminal.callDepth 32) entry.rule.statement (Rule.uses_true _)
  exact Parser.parseTokens_related (runs start) (Token.Recased.positions pairs) ends

/-- The case of the letters of words does not matter beyond names: with other letters, a text is
rejected at the same place and with the same expectations, or it is accepted with the same tree up
to the case of names that are changed words. Where the changed words are reserved, the trees are
equal. -/
theorem parse_recased (keywords : Keywords) (text text' : String) :
    (Recased keywords Token.isWord text text' →
      SameAnswer (SameUnder (entry.renamed (upperAmong (changedWords keywords text text'))))
        (Parser.parse keywords entry.rule text) (Parser.parse keywords entry.rule text')) ∧
    (Recased keywords (fun t => t.isWord && keywords.isReserved t.text) text text' →
      SameAnswer Eq (Parser.parse keywords entry.rule text)
        (Parser.parse keywords entry.rule text')) := by
  constructor
  · intro re
    have ends := Position.endOf_eq_of_sameWord re.same
    rcases re.tokenize with ⟨ts, ts', cut, cut', pairs⟩ | ⟨p, found, found', cut, cut'⟩
    · have alike : List.Forall₂
          (Token.Alike keywords (upperAmong (changedWords keywords text text'))) ts ts' := by
        obtain ⟨long, each⟩ := List.forall₂_iff_zip.1 pairs
        refine List.forall₂_iff_zip.2 ⟨long, fun {t t'} mem =>
          (each mem).alike ((each mem).upperAmong_eq fun different => ?_)⟩
        -- A word that is spelled in two ways is among the changed ones.
        have listed : ∀ w ∈ [t.text, t'.text], w ∈ changedWords keywords text text' := by
          intro w hw
          rw [changedWords, cut, cut']
          exact List.mem_flatMap.2 ⟨(t, t'), mem, by simpa [different] using hw⟩
        exact ⟨listed _ (by simp), listed _ (by simp)⟩
      simpa only [Parser.parse, cut, cut', Except.bind] using
        entry.parseTokens_alike alike (Token.Recased.positions pairs) ends
    · simpa only [Parser.parse, cut, cut', Except.bind] using .lexical p found found'
  · intro re
    have ends := Position.endOf_eq_of_sameWord re.same
    rcases re.tokenize with ⟨ts, ts', cut, cut', pairs⟩ | ⟨p, found, found', cut, cut'⟩
    · simpa only [Parser.parse, cut, cut', Except.bind] using
        entry.parseTokens_of_reserved (scanned_of_tokenize cut).1 pairs ends
    · simpa only [Parser.parse, cut, cut', Except.bind] using .lexical p found found'

/-- Once the name is in another case too, and once only the operators are. -/
theorem parse_recased_or :
    SameAnswer (SameUnder (EntryPoint.expression.renamed
        (upperAmong (changedWords .mysql "Not x or `x`" "NOT X Or `x`"))))
      (Parser.parse .mysql EntryPoint.expression.rule "Not x or `x`")
      (Parser.parse .mysql EntryPoint.expression.rule "NOT X Or `x`") ∧
    SameAnswer Eq (Parser.parse .mysql EntryPoint.expression.rule "Not x or `x`")
      (Parser.parse .mysql EntryPoint.expression.rule "NOT x Or `x`") := by
  have cut : tokenize .mysql "Not x or `x`" = .ok [⟨.keyword, "Not", ⟨0, 1, 1⟩⟩,
      ⟨.identifier, "x", ⟨4, 1, 5⟩⟩, ⟨.keyword, "or", ⟨6, 1, 7⟩⟩, ⟨.identifier, "`x`", ⟨9, 1, 10⟩⟩] :=
    Parser.eq_ok_of_toOption (by decide +kernel)
  refine ⟨(EntryPoint.expression.parse_recased .mysql _ _).1 ⟨by decide +kernel, fun ts found => ?_⟩,
    (EntryPoint.expression.parse_recased .mysql _ _).2 ⟨by decide +kernel, fun ts found => ?_⟩⟩
  · obtain rfl := Except.ok.inj (cut.symm.trans found)
    decide +kernel
  · obtain rfl := Except.ok.inj (cut.symm.trans found)
    decide +kernel

end EntryPoint

end TableDdl
