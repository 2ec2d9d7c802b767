import TableDdl.Attribute
import TableDdl.Proofs.Grammar.Accepting
import TableDdl.Proofs.RoundTrip.Codec

/-!
# Codecs of names, literals and words

Names that were read have a written form, and so have string literals: a name holds no backquote
and a literal not both quotes. Names that may have been read from string literals are loose.
-/
namespace TableDdl

open Text Writes

variable {calls depth : Nat} {x : String}

theorem nameOk_of_isWord {text : String} (h : IsWord text) : NameOk text := by
  obtain ⟨c, cs, whole, start, parts⟩ := h
  constructor
  · simp [whole]
  · rw [whole]
    intro mem
    rcases List.mem_cons.1 mem with rfl | mem
    · exact isWordPart_ne (.inl start) rfl
    · exact isWordPart_ne (.inr (List.all_eq_true.1 parts _ mem)) rfl

/-- A name that was read has a written form. -/
theorem nameOk_of_accept {t : Token} (sound : t.Sound Keywords.mysql)
    (accepted : Terminal.identifier.accept Keywords.mysql t = some x) : NameOk x := by
  obtain ⟨kind, text, position⟩ := t
  cases kind with
  | identifier =>
    obtain rfl : Terminal.unquote text = x := by simpa [Terminal.accept] using accepted
    rcases sound with ⟨word, -⟩ | ⟨name, quoted, some, clean⟩
    · rw [unquote_of_isWord word]
      exact nameOk_of_isWord word
    · have quoted : text.toList = '\x60' :: (name ++ ['\x60']) := quoted
      simpa [NameOk, Terminal.unquote, Terminal.inner, quoted] using ⟨some, clean⟩
  | keyword =>
    obtain ⟨-, rfl⟩ : _ ∧ text = x := by simpa [Terminal.accept] using accepted
    exact nameOk_of_isWord sound.1
  | _ => simp [Terminal.accept] at accepted

theorem writable_of_accept_string {t : Token} (sound : t.Sound Keywords.mysql)
    (accepted : Terminal.string.accept Keywords.mysql t = some x) :
    (Lexeme.string x).Writable := by
  obtain ⟨kind, text, position⟩ := t
  cases kind with
  | string =>
    obtain rfl : Terminal.inner text = x := by simpa [Terminal.accept] using accepted
    obtain ⟨quote, content, isQuote, whole, clean⟩ := sound
    have whole : text.toList = quote :: (content ++ [quote]) := whole
    have inside : (Terminal.inner text).toList = content := by simp [Terminal.inner, whole]
    rw [Lexeme.Writable, inside]
    rintro ⟨single, double⟩
    rcases isQuote with rfl | rfl
    · exact clean single
    · exact clean double
  | _ => simp [Terminal.accept] at accepted

/-- The edges of one operand. -/
def Edges.operand (s : Shape) : Edges := ⟨[some s], [], true⟩

theorem Rule.ReadsBack.token {t : Terminal} {l : Lexeme} {u : Written} (text : u.lexemes = [l])
    (sound : u.Sound) (accepted : t.accept Keywords.mysql l.token = some x) :
    (Rule.token t).ReadsBack calls depth (.operand l.shape) x u where
  fits := by rw [text]; exact ⟨by simp [Edges.operand], nofun⟩
  sound := sound
  takes _ pos rest _ := by
    rw [Rule.Takes, token_matched_iff, text]
    exact ⟨l.token, rest, rfl, accepted, rfl⟩

namespace Codec

def identifier : Codec Grammar.identifier (Exactly fun n => .plain [.name n]) where
  edges := .operand .name
  coherent := true
  written _ scanned read := by
    obtain ⟨first, rest, here, accepted, -⟩ := token_matched_iff.1 read
    have ok := nameOk_of_accept (scanned.1 first (by simp [here])) accepted
    have sound := Written.sound_single (l := .name _) ok
    exact ⟨_, rfl, .token rfl sound Terminal.accept_identifier_name⟩

def string : Codec Grammar.string (Exactly fun s => .plain [.string s]) where
  edges := .operand .string
  coherent := true
  written _ scanned read := by
    obtain ⟨first, rest, here, accepted, -⟩ := token_matched_iff.1 read
    have ok := writable_of_accept_string (scanned.1 first (by simp [here])) accepted
    exact ⟨_, rfl, .token rfl (Written.sound_single ok) Terminal.accept_string_string⟩

/-- A name that may come from a string literal: nothing is known of its letters. -/
def loose (name : String) : Written := ⟨[.name name], [name], []⟩

def looseName : Codec Grammar.looseName (Exactly loose) where
  edges := .operand .name
  coherent := true
  written {calls c next n} _ _ _ := by
    have sound : (loose n).Sound := by
      constructor
      · intro l hl
        exact .inr ⟨n, List.mem_cons_self, by simpa [loose] using hl⟩
      · exact .singleton _
    exact ⟨_, rfl, .left (.token rfl sound Terminal.accept_identifier_name)⟩

def counted {ν : Type} (number? : List Char → Option ν) (toNat : ν → Nat)
    (digits : ∀ n, number? (Number.digitsOf (toNat n)) = some n) :
    Codec (Grammar.counted number?) (Exactly fun n => .plain [.integer (toNat n)]) where
  edges := .operand .integer
  coherent := true
  written {calls c next n} _ _ _ := by
    have back : (Rule.token .number).ReadsBack calls c.depth (.operand .integer)
        (String.ofList (Number.digitsOf (toNat n))) (.plain [.integer (toNat n)]) :=
      .token rfl (Written.sound_single (l := .integer _) trivial) Terminal.accept_number_integer
    refine ⟨_, rfl, back.fits, back.sound, fun good pos rest avoids => ?_⟩
    apply Rule.convert_matched_iff.2
    exact ⟨_, back.takes good pos rest avoids, by simp [digits]⟩

def integer : Codec Grammar.integer (Exactly fun n => .plain [.integer n.toNat]) :=
  counted _ _ Number.natural32?_digitsOf

def long : Codec Grammar.long (Exactly fun n => .plain [.integer n.toNat]) :=
  counted _ _ Number.natural64?_digitsOf

def number : Codec Grammar.number (Exactly fun x => .plain [.number x]) where
  edges := .operand .number
  coherent := true
  written {calls c next x} _ _ _ := by
    have back : (Rule.token .number).ReadsBack calls c.depth (.operand .number)
        (String.ofList (Number.sqlFormat.write x)) (.plain [.number x]) :=
      .token rfl (Written.sound_single (l := .number _) trivial) Terminal.accept_number_number
    refine ⟨_, rfl, back.fits, back.sound, fun good pos rest avoids => ?_⟩
    apply Rule.convert_matched_iff.2
    exact ⟨_, back.takes good pos rest avoids, by simp [Number.ofText?_write]⟩

end Codec

/-- The edges of words that follow each other. -/
def Edges.phrase (first : String) (others : List String) : Edges :=
  others.foldl (fun E word => E.andThen (.word word)) (.word first)

theorem Rule.ReadsBack.phrase {first : String} {others : List String}
    (plain : ∀ word ∈ first :: others, isPlainWord word = true) :
    (Grammar.phrase first others).ReadsBack calls depth (.phrase first others) first
      (.plain ((first :: others).map .word)) := by
  have extend : ∀ {r : DdlRule String} {E : Edges} {ls : List Lexeme},
      r.ReadsBack calls depth E first (.plain ls) → E.follow = [] →
      (others.foldl (fun r word => r <* Grammar.literal word) r).ReadsBack calls depth
        (others.foldl (fun E word => E.andThen (.word word)) E) first
        (.plain (ls ++ others.map .word)) := by
    have plain : ∀ word ∈ others, isPlainWord word = true :=
      fun word hword => plain word (List.mem_cons_of_mem _ hword)
    clear * - plain
    induction others with
    | nil =>
      intro r E ls back _
      simpa using back
    | cons word others ih =>
      intro r E ls back bare
      obtain ⟨here, later⟩ := List.forall_mem_cons.1 plain
      have joins : E.joins (.word word) = true := by simp [Edges.joins, Edges.word, bare]
      have next := (back.both (.word here) joins).map Prod.fst
      have none_follows : (E.andThen (.word word)).follow = [] := by
        simp [Edges.andThen, Edges.word]
      have whole := ih later next none_follows
      rw [List.map_cons, List.append_cons]
      exact whole
  exact extend (.word (plain first List.mem_cons_self)) rfl

namespace Spelled

variable {α : Type} [Spelled α]

def words (value : α) : List String := head value :: tail value

/-- The first word or the second tells the values apart. -/
def apart (a b : α) : Bool :=
  !sameWord (head b) (head a) || match tail a, tail b with
    | x :: _, y :: _ => !sameWord y x
    | _, _ => false

/-- All words are plain, and no value is taken for an earlier one. -/
def Distinct (values : List α) : Prop :=
  (∀ a ∈ values, ∀ word ∈ words a, isPlainWord word = true) ∧
    values.Pairwise fun a b => apart a b = true

instance (values : List α) : Decidable (Distinct values) :=
  inferInstanceAs (Decidable ((∀ a ∈ values, ∀ word ∈ words a, isPlainWord word = true) ∧
    values.Pairwise fun a b => apart a b = true))

theorem failsEarly_phrase {r : DdlRule String} {c : Cursor} (others : List String)
    (early : r.FailsEarly calls c) :
    (others.foldl (fun r word => r <* Grammar.literal word) r).FailsEarly calls c := by
  induction others generalizing r with
  | nil => exact early
  | cons word others ih => exact ih ((early.both (Grammar.literal word)).map Prod.fst)

theorem failsHere_literal {word other : String} (plain : isPlainWord word = true)
    (different : sameWord word other = false) (pos : Nat) (rest : List Token) :
    (Grammar.literal other).FailsHere calls ⟨pos, (Lexeme.word word).token :: rest, depth⟩ := by
  apply Rule.failsHere_token
  intro t ht first hfirst
  obtain rfl : t = .literal other := by simpa using ht
  obtain rfl : (Lexeme.word word).token = first := by simpa using hfirst
  rw [Terminal.accept_literal_word plain, different]
  rfl

theorem spelling_failsEarly {a b : α} (apart : apart a b = true)
    (plain : ∀ word ∈ words b, isPlainWord word = true) (pos : Nat) (rest : List Token) :
    (Grammar.spelling a : DdlRule α).FailsEarly calls
      ⟨pos, tokensOf ((words b).map .word) ++ rest, depth⟩ := by
  apply Rule.FailsEarly.map
  obtain ⟨plainHead, plainTail⟩ := List.forall_mem_cons.1 plain
  cases same : sameWord (head b) (head a) with
  | false => exact failsEarly_phrase _ (failsHere_literal plainHead same pos _).early
  -- The first words are the same, so the second ones tell the two apart.
  | true =>
    simp only [Spelled.apart, same, Bool.not_true, Bool.false_or] at apart
    unfold Grammar.phrase words
    cases tailA : tail a with
    | nil => simp [tailA] at apart
    | cons x xs =>
      cases tailB : tail b with
      | nil => simp [tailA, tailB] at apart
      | cons y ys =>
        simp only [tailA, tailB, Bool.not_eq_true'] at apart
        have plainSecond : isPlainWord y = true := plainTail y (by simp [tailB])
        apply failsEarly_phrase (r := Grammar.literal (head a) <* Grammar.literal x) xs
        apply Rule.FailsEarly.map
        have first : (Grammar.literal (head a) : DdlRule String).read calls
            ⟨pos, tokensOf ((head b :: y :: ys).map .word) ++ rest, depth⟩ =
            .matched (head a) ⟨pos + 1, tokensOf ((y :: ys).map .word) ++ rest, depth⟩ := by
          apply token_matched_iff.2
          refine ⟨_, _, rfl, ?_, rfl⟩
          rw [Terminal.accept_literal_word plainHead, same]
          rfl
        exact .both_of_matched first (Nat.le_refl _) (failsHere_literal plainSecond apart _ _)

/-- The edges of the spelling of any of the values. -/
def edges (values : List α) : Edges where
  opens := values.map fun a => some (.word (head a))
  follow := []
  ends := values.any fun a => (Edges.phrase (head a) (tail a)).ends

theorem readsBack_spelling {a : α} (plain : ∀ word ∈ words a, isPlainWord word = true) :
    (Grammar.spelling a : DdlRule α).ReadsBack calls depth (Edges.phrase (head a) (tail a)) a
      (.plain ((words a).map .word)) :=
  (Rule.ReadsBack.phrase plain).map _

theorem within_edges {values : List α} {a : α} (mem : a ∈ values) :
    (Edges.phrase (head a) (tail a)).Within (edges values) := by
  have bare : ∀ (others : List String) (E : Edges), E.opens = [some (.word (head a))] →
      E.follow = [] →
      (others.foldl (fun E word => E.andThen (.word word)) E).opens = [some (.word (head a))] ∧
        (others.foldl (fun E word => E.andThen (.word word)) E).follow = [] := by
    intro others
    induction others with
    | nil => exact fun E opens follow => ⟨opens, follow⟩
    | cons word others ih =>
      intro E opens follow
      apply ih
      · simp [Edges.andThen, opens]
      · simp [Edges.andThen, Edges.word]
  obtain ⟨opens, follow⟩ := bare (tail a) (.word (head a)) rfl rfl
  constructor
  · intro s hs
    rw [Edges.phrase, opens, List.mem_singleton] at hs
    exact List.mem_map.2 ⟨a, mem, hs.symm⟩
  · intro t ht
    simp [Edges.phrase, follow] at ht
  · exact fun ends => List.any_eq_true.2 ⟨a, mem, ends⟩

/-- The spelling of a value is read as that value. -/
theorem readsBack_oneOf {first : α} {others : List α} {value : α}
    (distinct : Distinct (first :: others)) (mem : value ∈ first :: others) :
    (Rule.oneOf (Grammar.spelling first) (others.map Grammar.spelling) : DdlRule α).ReadsBack calls
      depth (edges (first :: others)) value (.plain ((words value).map .word)) := by
  obtain ⟨plain, apart⟩ := distinct
  suffices h : (Rule.oneOf (Grammar.spelling first) (others.map Grammar.spelling) :
      DdlRule α).ReadsBack calls depth (Edges.phrase (head value) (tail value)) value
      (.plain ((words value).map .word)) from h.within (within_edges mem)
  induction others generalizing first with
  | nil =>
    obtain rfl : value = first := by simpa using mem
    exact readsBack_spelling (plain value mem)
  | cons second others ih =>
    rcases List.mem_cons.1 mem with rfl | later
    · exact (readsBack_spelling (plain value mem)).left
    · obtain ⟨apartHere, apartLater⟩ := List.pairwise_cons.1 apart
      have back := ih later (List.forall_mem_cons.1 plain).2 apartLater
      apply back.right
      exact fun _ pos rest => spelling_failsEarly (apartHere value later) (plain value mem) pos rest

theorem mem_of_read_oneOf {first : α} {others : List α} {value : α} {c next : Cursor}
    (read : (Rule.oneOf (Grammar.spelling first) (others.map Grammar.spelling) :
      DdlRule α).read calls c = .matched value next) : value ∈ first :: others := by
  obtain ⟨s, mem, matched⟩ := Rule.exists_of_read_oneOf read
  rw [← List.map_cons] at mem
  obtain ⟨a, listed, rfl⟩ := List.mem_map.1 mem
  obtain ⟨_, -, rfl⟩ := Rule.map_matched_iff.1 matched
  exact listed

end Spelled

def Codec.spelled {α : Type} [Spelled α] :
    Codec (Grammar.spelled : DdlRule α) (Exactly fun a => .plain ((Spelled.words a).map .word)) where
  edges := Spelled.edges (Spelled.first :: Spelled.others : List α)
  coherent := decide (Spelled.Distinct (Spelled.first :: Spelled.others : List α))
  written ok _ read :=
    ⟨_, rfl, Spelled.readsBack_oneOf (of_decide_eq_true ok) (Spelled.mem_of_read_oneOf read)⟩

end TableDdl
