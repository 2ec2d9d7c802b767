import TableDdl.Proofs.RoundTrip.Edges

/-!
# Reading back

A text reads back as a value if a rule takes its tokens and gives the value, whatever stands
after it, as long as that avoids some terminals. How texts of parts make up texts of compound
rules is the same for all rules of the language.
-/
namespace TableDdl

variable {α β : Type}

/-- From `pos` on, the lexemes are read as the value, and `rest` is left. -/
def Rule.Takes (calls depth : Nat) (r : DdlRule α) (pos : Nat) (ls : List Lexeme)
    (rest : List Token) (x : α) : Prop :=
  r.read calls ⟨pos, tokensOf ls ++ rest, depth⟩ = .matched x ⟨pos + ls.length, rest, depth⟩

/-- The text reads back as the value at any place where nothing that it could go on with
follows. -/
structure Rule.ReadsBack (calls depth : Nat) (r : DdlRule α) (E : Edges) (x : α) (t : Written) :
    Prop where
  fits : E.Fits t.lexemes
  sound : t.Sound
  takes : t.Good → ∀ pos rest, Avoids E.follow rest → r.Takes calls depth pos t.lexemes rest x

namespace Written

theorem Sound.append {a b : Written} {E F : Edges} (ha : a.Sound) (hb : b.Sound)
    (joins : E.joins F = true) (fits : E.Fits a.lexemes) (fits' : F.Fits b.lexemes) :
    (a ++ b).Sound := by
  constructor
  · intro l hl
    rcases List.mem_append.1 hl with hl | hl
    · rcases ha.1 l hl with writable | ⟨name, loose, same⟩
      · exact .inl writable
      · exact .inr ⟨name, List.mem_append_left _ loose, same⟩
    · rcases hb.1 l hl with writable | ⟨name, loose, same⟩
      · exact .inl writable
      · exact .inr ⟨name, List.mem_append_right _ loose, same⟩
  · exact Edges.tame_append joins fits fits' ha.2 hb.2

theorem sound_nil : nil.Sound := ⟨by simp, .nil⟩

/-- A text of one writable lexeme. -/
theorem sound_single {l : Lexeme} (writable : l.Writable) : (plain [l]).Sound := by
  constructor
  · intro m hm
    obtain rfl : m = l := by simpa using hm
    exact .inl writable
  · exact .singleton _

/-- One text after another. -/
def concat : List Written → Written
  | [] => nil
  | t :: ts => t ++ concat ts

@[simp] theorem concat_nil : concat [] = nil := rfl

@[simp] theorem concat_cons (t : Written) (ts : List Written) :
    concat (t :: ts) = t ++ concat ts := rfl

/-- The texts with the same lexemes between any two of them. -/
def separated (separator : List Lexeme) : List Written → Written
  | [] => nil
  | t :: ts => t ++ concat (ts.map (plain separator ++ ·))

abbrev commas : List Written → Written := separated [.symbol ","]

/-- The texts of a list, one after the other, with what is known of their names. -/
theorem concat_map {ι : Type} (text : ι → List Lexeme) (loose heads : ι → List String)
    (xs : List ι) :
    concat (xs.map fun x => ⟨text x, loose x, heads x⟩) =
      ⟨xs.flatMap text, xs.flatMap loose, xs.flatMap heads⟩ := by
  induction xs with
  | nil => rfl
  | cons x xs ih =>
    rw [List.map_cons, concat_cons, ih]
    rfl

theorem concat_plain {ι : Type} (text : ι → List Lexeme) (xs : List ι) :
    concat (xs.map fun x => plain (text x)) = plain (xs.flatMap text) := by
  induction xs with
  | nil => rfl
  | cons x xs ih =>
    rw [List.map_cons, concat_cons, ih]
    rfl

theorem separated_map {ι : Type} (separator : List Lexeme) (text : ι → List Lexeme)
    (loose heads : ι → List String) (x : ι) (xs : List ι) :
    separated separator ((x :: xs).map fun x => ⟨text x, loose x, heads x⟩) =
      ⟨text x ++ xs.flatMap fun y => separator ++ text y, (x :: xs).flatMap loose,
        (x :: xs).flatMap heads⟩ := by
  rw [List.map_cons, separated, List.map_map]
  have texts : (xs.map ((plain separator ++ ·) ∘ fun x => (⟨text x, loose x, heads x⟩ : Written))) =
      xs.map fun x => ⟨separator ++ text x, loose x, heads x⟩ := rfl
  rw [texts, concat_map]
  rfl

end Written

namespace Edges

/-- The edges of nothing, after which the terminals have to be avoided. -/
def absent (ts : List Terminal) : Edges := ⟨[none], ts, false⟩

theorem fits_absent (ts : List Terminal) : (absent ts).Fits [] := ⟨by simp [absent], by simp⟩

def word (text : String) : Edges :=
  ⟨[some (.word text)], [], (Lexeme.word text).token.endsOperand Keywords.mysql⟩

def symbol (text : String) : Edges :=
  ⟨[some (.symbol text)], [], (Lexeme.symbol text).token.endsOperand Keywords.mysql⟩

/-- The edges of the texts that are not empty. -/
def present (E : Edges) : Edges := ⟨E.opens.filter Option.isSome, E.follow, E.ends⟩

/-- Any number of texts, where the terminals would take one more. -/
def repeated (E : Edges) (ts : List Terminal) : Edges := ⟨none :: E.opens, E.follow ++ ts, E.ends⟩

/-- One text or more, with commas between them. -/
def listed (E : Edges) : Edges := ⟨E.opens, E.follow ++ [.literal ","], E.ends⟩

theorem joins_repeated {a b : Edges} (joins : a.joins b = true) (ts : List Terminal) :
    a.joins (b.repeated ts) = true := by
  rw [Edges.joins, repeated, List.all_cons]
  exact joins

theorem within_repeated (E : Edges) (ts : List Terminal) :
    (E.andThen (E.repeated ts)).Within (E.repeated ts) := by
  constructor
  · intro s hs
    obtain ⟨first, hfirst, opens⟩ := List.mem_flatMap.1 hs
    cases first with
    | none => exact opens
    | some shape =>
      obtain rfl : s = some shape := by simpa using opens
      exact List.mem_cons_of_mem _ hfirst
  · intro t ht
    simp only [andThen, repeated, List.contains_cons, BEq.rfl, Bool.true_or, if_true,
      List.mem_append] at ht ⊢
    rcases ht with ht | ht
    · exact ht
    · exact .inl ht
  · simp [andThen, repeated]

theorem joins_of_symbol {text : String} (off : (Edges.symbol text).ends = false) (E : Edges) :
    (Edges.symbol text).joins E = true := by
  simp only [Edges.joins, off, List.all_eq_true]
  intro s _
  cases s <;> simp [Edges.symbol]

/-- Before a symbol, only the last of two texts counts where the first takes nothing more. -/
theorem joins_symbol_of_symbol {E : Edges} {text text' : String}
    (joins : E.joins (.symbol text') = true) :
    ((Edges.symbol text).andThen E).joins (.symbol text') = true := by
  simp [Edges.joins, Edges.andThen, Edges.symbol] at joins ⊢
  exact joins

/-- The edges of the items after the first one, each with its comma. -/
def afterComma (E : Edges) : Edges := ((Edges.symbol ",").andThen E).repeated [.literal ","]

theorem joins_afterComma {E : Edges} (joins : E.joins (.symbol ",") = true) :
    E.joins E.afterComma = true := by
  have comma : E.joins ((Edges.symbol ",").andThen E) = true := joins
  exact joins_repeated comma [.literal ","]

theorem within_listed {E : Edges} (solid : none ∉ E.opens) :
    (E.andThen E.afterComma).Within E.listed := by
  constructor
  · intro s hs
    obtain ⟨first, hfirst, opens⟩ := List.mem_flatMap.1 hs
    cases first with
    | none => exact absurd hfirst solid
    | some shape =>
      obtain rfl : s = some shape := by simpa using opens
      exact hfirst
  · intro t ht
    simp only [andThen, afterComma, repeated, symbol, List.mem_append, ite_self] at ht
    simp only [listed, List.mem_append]
    grind
  · have off : (Edges.symbol ",").ends = false := by decide
    simp [andThen, afterComma, repeated, listed, off]

theorem Fits.ne_nil {E : Edges} {ls : List Lexeme} (h : E.Fits ls) (solid : none ∉ E.opens) :
    ls ≠ [] := by
  rintro rfl
  exact solid h.opens

end Edges

namespace Rule

variable {calls depth : Nat} {r : DdlRule α} {s : DdlRule β} {E F : Edges} {x : α} {y : β}
  {t u : Written}

namespace Takes

variable {pos : Nat} {ls ms : List Lexeme} {rest : List Token}

theorem map (f : α → β) (h : r.Takes calls depth pos ls rest x) :
    (Rule.map f r).Takes calls depth pos ls rest (f x) :=
  map_matched_iff.2 ⟨x, h, rfl⟩

theorem both (h : r.Takes calls depth pos ls (tokensOf ms ++ rest) x)
    (h' : s.Takes calls depth (pos + ls.length) ms rest y) :
    (Rule.both r s).Takes calls depth pos (ls ++ ms) rest (x, y) := by
  rw [Takes, tokensOf_append, List.append_assoc, List.length_append, ← Nat.add_assoc]
  exact both_matched_iff.2 ⟨_, h, h'⟩

end Takes

namespace ReadsBack

theorem map (f : α → β) (h : r.ReadsBack calls depth E x t) :
    (Rule.map f r).ReadsBack calls depth E (f x) t where
  fits := h.fits
  sound := h.sound
  takes good pos rest avoids := (h.takes good pos rest avoids).map f

theorem within (h : r.ReadsBack calls depth E x t) (within : E.Within F) :
    r.ReadsBack calls depth F x t where
  fits := h.fits.of_within within
  sound := h.sound
  takes good pos rest avoids := h.takes good pos rest (Edges.avoids_of_within avoids within)

theorem both (h : r.ReadsBack calls depth E x t) (h' : s.ReadsBack calls depth F y u)
    (joins : E.joins F = true) :
    (Rule.both r s).ReadsBack calls depth (E.andThen F) (x, y) (t ++ u) where
  fits := h.fits.append h'.fits
  sound := h.sound.append h'.sound joins h.fits h'.fits
  takes good pos rest avoids := by
    obtain ⟨goodT, goodU⟩ := Written.good_append.1 good
    have between : Avoids E.follow (tokensOf u.lexemes ++ rest) :=
      Edges.avoids_andThen joins h'.fits (h'.sound.writable goodU) avoids
    have first := h.takes goodT pos _ between
    have second := h'.takes goodU (pos + t.lexemes.length) rest (Avoids.append_iff.1 avoids).1
    exact first.both second

theorem seq {r : DdlRule (α → β)} {s : DdlRule α} {f : α → β}
    (h : r.ReadsBack calls depth E f t) (h' : s.ReadsBack calls depth F x u)
    (joins : E.joins F = true) : (r <*> s).ReadsBack calls depth (E.andThen F) (f x) (t ++ u) :=
  (h.both h' joins).map _

theorem left {s : DdlRule α} (h : r.ReadsBack calls depth E x t) :
    (Rule.either r s).ReadsBack calls depth E x t where
  fits := h.fits
  sound := h.sound
  takes good pos rest avoids := either_matched_iff.2 (.inl (h.takes good pos rest avoids))

/-- The second alternative counts where the first fails early. -/
theorem right {s : DdlRule α} (h : s.ReadsBack calls depth E x t)
    (early : t.Good → ∀ pos rest, r.FailsEarly calls ⟨pos, tokensOf t.lexemes ++ rest, depth⟩) :
    (Rule.either r s).ReadsBack calls depth E x t where
  fits := h.fits
  sound := h.sound
  takes good pos rest avoids :=
    either_matched_iff.2 (.inr ⟨early good pos rest, h.takes good pos rest avoids⟩)

/-- A rule fails at a text that its first terminals refuse. -/
theorem failsHere (h : s.ReadsBack calls depth E y t) {ts : List Terminal}
    (known : r.first = some ts) (some : r.nullable = false) (refused : E.refusedBy ts = true)
    (good : t.Good) (pos : Nat) (rest : List Token) :
    r.FailsHere calls ⟨pos, tokensOf t.lexemes ++ rest, depth⟩ :=
  failsHere_of_avoids known some
    (Edges.avoids_of_refusedBy refused h.fits (h.sound.writable good))

/-- The second alternative counts where the first terminals of the other refuse its text. -/
theorem refusing {r s : DdlRule α} (h : s.ReadsBack calls depth E x t) (starts : r.Starts)
    (refused : E.refusedBy r.starts = true) : (Rule.either r s).ReadsBack calls depth E x t :=
  h.right fun good pos rest =>
    (h.failsHere starts.first_eq starts.solid refused good pos rest).early

/-- The same where the text may be empty: then what follows it must be refused as well. -/
theorem refusingOpen {r s : DdlRule α} (h : s.ReadsBack calls depth E x t) (starts : r.Starts)
    (refused : (Edges.absent r.starts).joins E = true) :
    (Rule.either r s).ReadsBack calls depth ((Edges.absent r.starts).andThen E) x t where
  fits := (Edges.fits_absent r.starts).append h.fits
  sound := h.sound
  takes good pos rest avoids := by
    have ahead := Edges.avoids_andThen refused h.fits (h.sound.writable good) avoids
    have fails : r.FailsHere calls ⟨pos, tokensOf t.lexemes ++ rest, depth⟩ :=
      failsHere_of_avoids starts.first_eq starts.solid ahead
    exact either_matched_iff.2
      (.inr ⟨fails.early, h.takes good pos rest (Avoids.append_iff.1 avoids).1⟩)

/-- A text that is there opens with a lexeme. -/
theorem present (h : r.ReadsBack calls depth E x t) (some : t.lexemes ≠ []) :
    r.ReadsBack calls depth E.present x t where
  fits := by
    refine ⟨List.mem_filter.2 ⟨h.fits.opens, ?_⟩, h.fits.ends⟩
    cases ls : t.lexemes with
    | nil => exact absurd ls some
    | cons l ls => rfl
  sound := h.sound
  takes := h.takes

theorem given (h : r.ReadsBack calls depth E x t) :
    r.optional.ReadsBack calls depth E (some x) t where
  fits := h.fits
  sound := h.sound
  takes good pos rest avoids :=
    optional_matched_iff.2 (.inl ⟨x, rfl, h.takes good pos rest avoids⟩)

theorem absent {ts : List Terminal} (known : r.first = some ts) (some : r.nullable = false) :
    r.optional.ReadsBack calls depth (.absent ts) none .nil where
  fits := Edges.fits_absent ts
  sound := Written.sound_nil
  takes _ pos rest avoids :=
    by
    have fails : r.FailsHere calls ⟨pos, rest, depth⟩ := failsHere_of_avoids known some avoids
    exact optional_matched_iff.2 (.inr ⟨rfl, rfl, fails.early⟩)

/-- One text after another is read round by round. -/
theorem rounds {ts : List Terminal} {xs : List α} {us : List Written}
    (known : r.first = some ts) (some : r.nullable = false) (joins : E.joins E = true)
    (solid : none ∉ E.opens) (h : List.Forall₂ (r.ReadsBack calls depth E) xs us) :
    (E.repeated ts).Fits (Written.concat us).lexemes ∧ (Written.concat us).Sound ∧
      ((Written.concat us).Good → ∀ pos rest, Avoids (E.repeated ts).follow rest →
        Rounds calls r ⟨pos, tokensOf (Written.concat us).lexemes ++ rest, depth⟩ xs
          ⟨pos + (Written.concat us).lexemes.length, rest, depth⟩) := by
  have joins' := Edges.joins_repeated joins ts
  have within := Edges.within_repeated E ts
  induction h with
  | nil =>
    refine ⟨⟨by simp [Edges.repeated], by simp⟩, Written.sound_nil, ?_⟩
    intro _ pos rest avoids
    exact .stop (failsHere_of_avoids known some (Avoids.append_iff.1 avoids).2).early
  | @cons x u xs us item _ ih =>
    obtain ⟨fits, sound, later⟩ := ih
    refine ⟨(item.fits.append fits).of_within within, item.sound.append sound joins' item.fits fits,
      ?_⟩
    intro good pos rest avoids
    obtain ⟨goodU, goodUs⟩ := Written.good_append.1 good
    have between := Edges.avoids_andThen joins' fits (sound.writable goodUs)
      (Edges.avoids_of_within avoids within)
    have first := item.takes goodU pos _ between
    have length : 0 < u.lexemes.length := List.length_pos_iff.2 (item.fits.ne_nil solid)
    rw [Written.concat_cons, Written.lexemes_append, tokensOf_append, List.append_assoc,
      List.length_append, ← Nat.add_assoc]
    exact .round first (by simp only [ne_eq]; omega) (later goodUs _ rest avoids)

theorem many {ts : List Terminal} {xs : List α} {us : List Written}
    (known : r.first = some ts) (some : r.nullable = false) (joins : E.joins E = true)
    (solid : none ∉ E.opens) (h : List.Forall₂ (r.ReadsBack calls depth E) xs us) :
    r.many.ReadsBack calls depth (E.repeated ts) xs (.concat us) := by
  obtain ⟨fits, sound, reads⟩ := rounds known some joins solid h
  exact ⟨fits, sound, fun good pos rest avoids => many_of_rounds (reads good pos rest avoids)⟩

theorem word {text : String} (plain : Text.isPlainWord text = true) :
    (Grammar.literal text).ReadsBack calls depth (.word text) text (.plain [.word text]) where
  fits := ⟨by simp [Edges.word, Lexeme.shape], by simp [Edges.word]⟩
  sound := Written.sound_single plain
  takes _ pos rest _ := by
    rw [Rule.Takes, Grammar.literal, read_token]
    simp [Terminal.accept_literal_word plain, Text.sameWord_refl]

theorem symbol {text : String} (known : (Lexeme.symbol text).Writable) :
    (Grammar.literal text).ReadsBack calls depth (.symbol text) text (.plain [.symbol text]) where
  fits := ⟨by simp [Edges.symbol, Lexeme.shape], by simp [Edges.symbol]⟩
  sound := Written.sound_single known
  takes _ pos rest _ := by
    rw [Rule.Takes, Grammar.literal, read_token]
    simp [Terminal.accept_literal_symbol]

theorem commaList {xs : List α} {us : List Written} (joins : E.joins (.symbol ",") = true)
    (solid : none ∉ E.opens) (first : r.ReadsBack calls depth E x t)
    (h : List.Forall₂ (r.ReadsBack calls depth E) xs us) :
    (Grammar.commaList r).ReadsBack calls depth E.listed (x :: xs) (.commas (t :: us)) := by
  have comma : (Grammar.literal ",").ReadsBack calls depth (.symbol ",") ","
    (.plain [.symbol ","]) := symbol (by decide)
  have items : List.Forall₂ ((Grammar.literal "," *> r).ReadsBack calls depth
      ((Edges.symbol ",").andThen E)) xs (us.map (.plain [.symbol ","] ++ ·)) := by
    rw [List.forall₂_map_right_iff]
    exact h.imp fun y u item => (comma.both item (Edges.joins_of_symbol (by decide) E)).map Prod.snd
  have between := Edges.joins_afterComma joins
  have onwards : ((Edges.symbol ",").andThen E).joins ((Edges.symbol ",").andThen E) = true :=
    Edges.joins_symbol_of_symbol joins
  obtain ⟨fits, sound, reads⟩ := rounds (r := Grammar.literal "," *> r) rfl rfl
    onwards (by simp [Edges.andThen, Edges.symbol]) items
  have within := Edges.within_listed solid
  refine ⟨(first.fits.append fits).of_within within,
    first.sound.append sound between first.fits fits, ?_⟩
  intro good pos rest avoids
  obtain ⟨goodT, goodUs⟩ := Written.good_append.1 good
  have whole := Edges.avoids_of_within avoids within
  have head := first.takes goodT pos _
    (Edges.avoids_andThen between fits (sound.writable goodUs) whole)
  have tail := reads goodUs (pos + t.lexemes.length) rest (Avoids.append_iff.1 whole).1
  rw [Takes, Written.commas, Written.separated, Written.lexemes_append, tokensOf_append,
    List.append_assoc, List.length_append, ← Nat.add_assoc]
  exact sepBy1_matched_iff.2 ⟨x, _, xs, rfl, head, tail⟩

end ReadsBack
end Rule
end TableDdl
