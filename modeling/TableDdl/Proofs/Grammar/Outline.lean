import TableDdl.Proofs.Grammar.Leads
import TableDdl.Proofs.Grammar.Room
import TableDdl.Proofs.TableOption.Forms

/-!
# Outlines

What a part of a text has to do with the parts around it where readings with two limits of nesting
are compared: how deep it is, and which words it could go on with or begins with. Main statement:
each way to build a rule hands on that a reading with one limit is the reading with another limit
that the outline fits.
-/
namespace TableDdl

open Text

variable {α β : Type}

/-- What matters of a part of a text to the parts around it. -/
@[ext]
structure Outline where
  /-- The levels of nesting. -/
  nest : Nat
  /-- The words that it could go on with. -/
  awaits : List String
  /-- The words of this kind that it may begin with, and those that begin a level of nesting. -/
  opens : List String
  /-- The words that some part of it could go on with and that may follow that part. -/
  clashes : List String
  /-- It has no token. -/
  blank : Bool
deriving DecidableEq

namespace Outline

/-- No part at all. -/
def nothing : Outline := ⟨0, [], [], [], true⟩

/-- A part that is not there and begins with the word. -/
def awaiting (text : String) : Outline := ⟨0, [text], [], [], true⟩

/-- Tokens without parts that may begin with those words. -/
def opening (texts : List String) : Outline := ⟨0, [], texts, [], false⟩

/-- Tokens without parts. -/
def plain : Outline := opening []

/-- A name, which may be the word `OFFSET`. -/
def name : Outline := ⟨0, ["("], ["OFFSET"], [], false⟩

/-- One part after the other. -/
instance : Append Outline where
  append o o' :=
    { nest := max o.nest o'.nest
      awaits := if o'.blank then o.awaits ++ o'.awaits else o'.awaits
      opens := if o.blank then o.opens ++ o'.opens else o.opens
      clashes := o.clashes ++ o'.clashes ++ o.awaits.filter o'.opens.contains
      blank := o.blank && o'.blank }

/-- One level deeper in the nesting. -/
def deeper (o : Outline) : Outline := { o with nest := o.nest + 1 }

def enclosed (o : Outline) : Outline := opening ["("] ++ o ++ plain

def sequence (os : List Outline) : Outline := os.foldr (· ++ ·) nothing

/-- One part after the other, with separators between them. -/
def joined : List Outline → Outline
  | [] => nothing
  | o :: os => o ++ sequence (os.map (plain ++ ·))

/-- Tokens without parts that may be missing. -/
def given {α : Type} (o : Option α) : Outline := if o.isSome then plain else nothing

end Outline

/-- The next token spells the word. -/
def Heads (text : String) (rest : List Token) : Prop := ∃ t ∈ rest.head?, t.spells text = true

namespace Outline

/-- The words that matter. -/
def words : List String := ["(", "WHERE", "LIMIT", "OFFSET", "SELECT"]

/-- The outline tells the truth about the tokens between two cursors. -/
structure Spans (o : Outline) (limit : Nat) (c next : Cursor) : Prop where
  reaches : c.Reaches next
  within : o.nest ≤ limit - c.depth
  known : ∀ text ∈ o.awaits, text ∈ words
  blank : o.blank = true → next = c
  opens : (∀ t ∈ c.rest, t.Sound Keywords.mysql) → o.blank = false →
    ∀ text ∈ words, Heads text c.rest → text ∈ o.opens

/-- The tokens can be read in the same way with the other limit: there are enough levels, and with
more levels than there were no part can take more than it did. Where a part is followed by a word
that it could go on with, it did not go on for another reason if there was a level to spare. -/
structure Fits (o : Outline) (limit other : Nat) (c next : Cursor) : Prop where
  nest : o.nest ≤ other - c.depth
  sound : limit < other → ∀ t ∈ c.rest, t.Sound Keywords.mysql
  final : limit < other → ∀ text, text ∈ o.clashes ∨ text ∈ o.awaits ∧ Heads text next.rest →
    text ≠ "(" ∧ o.nest < limit - c.depth

@[simp] theorem nest_append (o o' : Outline) : (o ++ o').nest = max o.nest o'.nest := rfl

theorem awaits_append (o o' : Outline) :
    (o ++ o').awaits = if o'.blank then o.awaits ++ o'.awaits else o'.awaits := rfl

theorem opens_append (o o' : Outline) :
    (o ++ o').opens = if o.blank then o.opens ++ o'.opens else o.opens := rfl

theorem clashes_append (o o' : Outline) : (o ++ o').clashes =
    o.clashes ++ o'.clashes ++ o.awaits.filter o'.opens.contains := rfl

@[simp] theorem mem_clashes_append {o o' : Outline} {text : String} :
    text ∈ (o ++ o').clashes ↔
      text ∈ o.clashes ∨ text ∈ o'.clashes ∨ text ∈ o.awaits ∧ text ∈ o'.opens := by
  simp [clashes_append]

@[simp] theorem blank_append (o o' : Outline) : (o ++ o').blank = (o.blank && o'.blank) := rfl

@[simp] theorem append_nothing (o : Outline) : o ++ nothing = o := by
  ext1
  · exact Nat.max_zero o.nest
  · exact List.append_nil o.awaits
  · cases empty : o.blank <;> simp [opens_append, empty, nothing]
  · simp [clashes_append, nothing]
  · exact Bool.and_true o.blank

/-- Tokens in front belong as well to the first of two parts as to both. -/
theorem opening_append (texts : List String) (o o' : Outline) :
    opening texts ++ (o ++ o') = opening texts ++ o ++ o' := by
  ext1
  · exact (Nat.max_assoc 0 o.nest o'.nest).symm
  · cases empty : o.blank <;> cases empty' : o'.blank <;>
      simp [awaits_append, empty, empty', opening]
  · rfl
  · cases empty : o.blank <;> simp [clashes_append, awaits_append, empty, opening]
  · rfl

theorem opening_plain (texts : List String) (o : Outline) :
    opening texts ++ (plain ++ o) = opening texts ++ o := by
  rw [plain, opening_append]
  rfl

/-- More tokens without parts make no difference. -/
theorem opening_sequence {texts : List String} {xs : List α} {os : List Outline}
    (each : List.Forall₂ (fun _ o => o = plain) xs os) :
    opening texts ++ sequence os = opening texts := by
  induction each with
  | nil => rfl
  | cons same _ ih =>
    subst same
    exact (opening_plain texts _).trans ih

variable {o o' : Outline} {limit other : Nat} {c mid next : Cursor}

theorem sound_of_reaches (h : c.Reaches next) (sound : ∀ t ∈ c.rest, t.Sound Keywords.mysql) :
    ∀ t ∈ next.rest, t.Sound Keywords.mysql := by
  obtain ⟨taken, whole, -, -⟩ := h
  exact fun t ht => sound t (whole ▸ List.mem_append_right taken ht)

theorem Spans.append (h : o.Spans limit c mid) (h' : o'.Spans limit mid next) :
    (o ++ o').Spans limit c next where
  reaches := h.reaches.trans h'.reaches
  within := by
    obtain ⟨_, _, _, deep⟩ := h.reaches
    have := h.within
    have := h'.within
    change max o.nest o'.nest ≤ _
    rw [deep] at this
    omega
  known text awaits := by
    change text ∈ (if o'.blank then o.awaits ++ o'.awaits else o'.awaits) at awaits
    split at awaits
    · exact (List.mem_append.1 awaits).elim (h.known text) (h'.known text)
    · exact h'.known text awaits
  blank empty := by
    obtain ⟨empty, empty'⟩ := Bool.and_eq_true_iff.1 empty
    exact (h'.blank empty').trans (h.blank empty)
  opens sound some text known heads := by
    change text ∈ (if o.blank then o.opens ++ o'.opens else o.opens)
    cases empty : o.blank with
    | true =>
      obtain rfl := h.blank empty
      have some' : o'.blank = false := by
        change (o.blank && o'.blank) = false at some
        rwa [empty] at some
      exact List.mem_append_right _ (h'.opens sound some' text known heads)
    | false => exact h.opens sound empty text known heads

/-- What fits two parts in a row fits each of them. -/
theorem Fits.of_append (h : o.Spans limit c mid) (h' : o'.Spans limit mid next)
    (fits : (o ++ o').Fits limit other c next) :
    o.Fits limit other c mid ∧ o'.Fits limit other mid next := by
  obtain ⟨nest, sound, final⟩ := fits
  obtain ⟨_, _, _, deep⟩ := h.reaches
  simp only [nest_append, mem_clashes_append] at nest final
  have sound' (up : limit < other) := sound_of_reaches h.reaches (sound up)
  refine ⟨⟨by omega, sound, fun up text clash => ?_⟩,
    ⟨by rw [deep]; omega, sound', fun up text clash => ?_⟩⟩
  · suffices text ≠ "(" ∧ max o.nest o'.nest < limit - c.depth from ⟨this.1, by omega⟩
    refine final up text ?_
    rcases clash with clash | ⟨awaits, heads⟩
    · exact .inl (.inl clash)
    · cases empty : o'.blank with
      | true =>
        obtain rfl := h'.blank empty
        rw [awaits_append, if_pos empty]
        exact .inr ⟨List.mem_append_left _ awaits, heads⟩
      | false =>
        have opens := h'.opens (sound' up) empty text (h.known text awaits) heads
        exact .inl (.inr (.inr ⟨awaits, opens⟩))
  · suffices text ≠ "(" ∧ max o.nest o'.nest < limit - c.depth from
      ⟨this.1, by rw [deep]; omega⟩
    refine final up text ?_
    rcases clash with clash | ⟨awaits, heads⟩
    · exact .inl (.inr (.inl clash))
    · refine .inr ⟨?_, heads⟩
      rw [awaits_append]
      split
      · exact List.mem_append_right _ awaits
      · exact awaits

theorem Spans.deeper {c inner : Cursor} (room : c.depth < limit)
    (h : o.Spans limit { c with depth := c.depth + 1 } inner) :
    o.deeper.Spans limit c { inner with depth := c.depth } where
  reaches := by
    obtain ⟨taken, whole, pos, -⟩ := h.reaches
    exact ⟨taken, whole, pos, rfl⟩
  within := by
    have := h.within
    simp only at this
    change o.nest + 1 ≤ _
    omega
  known := h.known
  blank empty := by
    rw [h.blank empty]
  opens := h.opens

theorem Fits.of_deeper {inner : Cursor}
    (fits : o.deeper.Fits limit other c { inner with depth := c.depth }) :
    c.depth < other ∧ o.Fits limit other { c with depth := c.depth + 1 } inner := by
  have nest : o.nest + 1 ≤ other - c.depth := fits.nest
  refine ⟨by omega, by simp only; omega, fits.sound, fun up text clash => ?_⟩
  have spare : text ≠ "(" ∧ o.nest + 1 < limit - c.depth := fits.final up text clash
  exact ⟨spare.1, by simp only; omega⟩

end Outline

namespace Rule

/-- The rule fails at most one token past the start. -/
def EarlyTo (limit calls : Nat) (r : DdlRule α) (c : Cursor) : Prop :=
  ∃ f, r.readTo limit calls c = .failed f ∧ f.pos ≤ c.pos + 1

/-- What the rule reads with one limit has an outline, related to the value, and is read with every
limit that the outline fits. -/
def Nests (calls : Nat) (R : α → Outline → Prop) (r : DdlRule α) : Prop :=
  ∀ ⦃limit c x next⦄, r.readTo limit calls c = .matched x next →
    ∃ o, R x o ∧ o.Spans limit c next ∧
      ∀ other, o.Fits limit other c next → (r.readTo other calls c).MatchesIfAny x next

variable {limit other calls levels : Nat} {r : DdlRule α} {c : Cursor}

theorem failsIfAny_of_room (two : levels ≤ 2) (room : 2 ≤ r.room levels)
    (below : levels ≤ limit - c.depth) (below' : levels ≤ other - c.depth)
    (early : r.EarlyTo limit calls c) : (r.readTo other calls c).FailsIfAny (c.pos + 1) := by
  obtain ⟨f, failed, near⟩ := early
  rcases parts limit other calls r two below below' with same | ⟨after, -⟩
  · exact .inr ⟨f, same ▸ failed, near⟩
  · rw [failed] at after
    change c.pos + r.room levels ≤ f.pos at after
    omega

theorem failsIfAny_of_le (lower : other ≤ limit) (sheds : r.sheds 1 = true)
    (early : r.EarlyTo limit calls c) : (r.readTo other calls c).FailsIfAny (c.pos + 1) := by
  obtain ⟨f, failed, near⟩ := early
  exact ((lowers lower calls r).fails (Nat.le_refl 1) sheds failed near).mono near

theorem failsIfAny_of_not_heads {text : String} (leads : r.leads = [.literal text])
    (solid : r.solid = true) (some : 1 ≤ r.least) (other' : ¬ Heads text c.rest) :
    (r.readTo other calls c).FailsIfAny (c.pos + 1) := by
  refine (failsIfAny_of_avoids solid some ?_).mono (Nat.le_succ _)
  intro t ht first here
  rw [leads, List.mem_singleton] at ht
  subst ht
  exact if_neg fun spells => other' ⟨first, here, spells⟩

end Rule

namespace Terminal

/-- Whether the terminal may take a token that spells the word. -/
def mayBe (text : String) : Terminal → Bool
  | .literal word => sameWord word text
  | .identifier => text == "OFFSET"
  | .string => false
  | .number => false

theorem mayBe_of_accept {t : Token} {terminal : Terminal} {text : String}
    (sound : t.Sound Keywords.mysql) (known : text ∈ "NOT" :: Outline.words)
    (spells : t.spells text = true) (accepted : terminal.accept Keywords.mysql t ≠ none) :
    terminal.mayBe text = true := by
  cases terminal with
  | literal word =>
    have same : t.spells word = true :=
      Classical.byContradiction fun other => accepted (if_neg other)
    exact Token.sameWord_of_spells same spells
  | identifier =>
    by_cases odd : text = "("
    · subst odd
      have kind := (Token.operator_of_spells sound (by decide) spells).1
      simp [accept, kind] at accepted
    · have plain : isPlainWord text = true ∧
          (text ≠ "OFFSET" → Keywords.mysql.isReserved text = true) := by
        have each : ∀ text ∈ "NOT" :: Outline.words, text ≠ "(" → isPlainWord text = true ∧
            (text ≠ "OFFSET" → Keywords.mysql.isReserved text = true) := by decide
        exact each text known odd
      obtain ⟨word, same⟩ := Token.word_of_spells sound plain.1 spells
      refine beq_iff_eq.2 (Classical.byContradiction fun other => accepted ?_)
      rw [Token.accept_identifier_of_isWord sound word, isReserved_congr same, plain.2 other]
      rfl
  | string =>
    have kind : t.kind = .string := Classical.byContradiction fun other => accepted (if_neg other)
    simp [Token.spells, Token.isWord, kind] at spells
  | number =>
    have kind : t.kind = .number := Classical.byContradiction fun other => accepted (if_neg other)
    simp [Token.spells, Token.isWord, kind] at spells

/-- The first terminal takes a word that the second one does not take. -/
def apart : Terminal → Terminal → Bool
  | .literal text, other => ("NOT" :: Outline.words).contains text && !other.mayBe text
  | _, _ => false

theorem accept_eq_none_of_apart {t : Token} {terminal other : Terminal}
    (sound : t.Sound Keywords.mysql) (apart : terminal.apart other = true) :
    terminal.accept Keywords.mysql t = none ∨ other.accept Keywords.mysql t = none := by
  cases terminal with
  | literal text =>
    simp only [Terminal.apart, Bool.and_eq_true, List.contains_iff_mem, Bool.not_eq_true'] at apart
    obtain ⟨known, never⟩ := apart
    cases spells : t.spells text with
    | true =>
      refine .inr (Classical.byContradiction fun taken => ?_)
      rw [mayBe_of_accept sound known spells taken] at never
      cases never
    | false => exact .inl (if_neg (by simp [spells]))
  | identifier => cases apart
  | string => cases apart
  | number => cases apart

end Terminal

namespace Rule

/-- The rule has no nesting and takes a token, which may be none of the words but those. -/
def opensOnly {α : Type} (texts : List String) (r : DdlRule α) : Bool :=
  r.flat && r.solid && decide (1 ≤ r.least) &&
    Outline.words.all fun text => texts.contains text || r.leads.all fun t => !t.mayBe text

/-- The rules take tokens, and never the same one as the first. -/
def apart {α β : Type} (r : DdlRule α) (s : DdlRule β) : Bool :=
  r.solid && decide (1 ≤ r.least) && s.solid && decide (1 ≤ s.least) &&
    r.leads.all fun t => s.leads.all fun t' => t.apart t' || t'.apart t

variable {limit other calls levels : Nat} {r : DdlRule α} {c next : Cursor}

/-- A match that takes a token begins with a word only if a terminal in front may take it. -/
theorem mayBe_of_heads (solid : r.solid = true) {x : α} {text : String}
    (sound : ∀ t ∈ c.rest, t.Sound Keywords.mysql) (known : text ∈ "NOT" :: Outline.words)
    (found : r.readTo limit calls c = .matched x next) (moved : next ≠ c)
    (heads : Heads text c.rest) : ∃ t ∈ r.leads, t.mayBe text = true := by
  obtain ⟨t, ht, first, here, taken⟩ := exists_lead solid found moved
  obtain ⟨first', here', spells⟩ := heads
  obtain rfl := Option.some.inj (here.symm.trans here')
  exact ⟨t, ht, Terminal.mayBe_of_accept (sound _ (List.mem_of_mem_head? here)) known spells taken⟩

theorem heads_of_literal {text x : String}
    (found : (Grammar.literal text).readTo limit calls c = .matched x next) :
    Heads text c.rest := by
  change (Rule.token (.literal text)).readTo limit calls c = _ at found
  rw [readTo_token] at found
  cases rest : c.rest with
  | nil => simp [rest] at found
  | cons first tail =>
    refine ⟨first, rfl, ?_⟩
    cases spells : first.spells text with
    | true => rfl
    | false => simp [rest, Terminal.accept, spells] at found

namespace Nests

variable {R : α → Outline → Prop} {S : β → Outline → Prop} {s : DdlRule β}

theorem mono {R' : α → Outline → Prop} (h : r.Nests calls R) (weaker : ∀ x o, R x o → R' x o) :
    r.Nests calls R' := by
  intro limit c x next found
  obtain ⟨o, value, rest⟩ := h found
  exact ⟨o, weaker x o value, rest⟩

/-- A rule without nesting has the words in its outline that it may begin with. -/
theorem of_opensOnly (texts : List String) (only : r.opensOnly texts = true) :
    r.Nests calls fun _ o => o = Outline.opening texts := by
  simp only [opensOnly, Bool.and_eq_true, decide_eq_true_eq, List.all_eq_true, Bool.or_eq_true,
    List.contains_iff_mem] at only
  obtain ⟨⟨⟨flat, solid⟩, some⟩, only⟩ := only
  intro limit c x next found
  have moved := ne_of_readTo some found
  refine ⟨_, rfl, ⟨reaches_of_readTo found, Nat.zero_le _,
    fun _ awaits => absurd awaits List.not_mem_nil, fun empty => absurd empty Bool.false_ne_true,
    fun sound _ text known heads => ?_⟩, fun other _ => .inr ?_⟩
  · have known' := List.mem_cons_of_mem "NOT" known
    obtain ⟨t, ht, may⟩ := mayBe_of_heads solid sound known' found moved heads
    refine (only text known).elim id fun refused => ?_
    have := refused t ht
    simp [may] at this
  · rw [readTo_of_flat flat, found]

theorem unanswered {name : Nonterminal α} : Nests 0 R (.call name) := nofun

theorem call {name : Nonterminal α} (h : name.rule.Nests calls R) :
    Nests (calls + 1) R (.call name) := h

theorem map {f : α → β} (h : r.Nests calls R) (values : ∀ x o, R x o → S (f x) o) :
    Nests calls S (f <$> r) := by
  intro limit c y next found
  change (Rule.map f r).readTo limit calls c = _ at found
  rw [readTo_map, Outcome.map_eq_matched_iff] at found
  obtain ⟨x, first, rfl⟩ := found
  obtain ⟨o, value, spans, reads⟩ := h first
  refine ⟨o, values x o value, spans, fun other fits => ?_⟩
  change ((Rule.map f r).readTo other calls c).MatchesIfAny _ _
  rw [readTo_map]
  exact (reads other fits).map f

theorem both (hr : r.Nests calls R) (hs : s.Nests calls S) :
    Nests calls (fun p o => ∃ o₁ o₂, R p.1 o₁ ∧ S p.2 o₂ ∧ o₁ ++ o₂ = o) (.both r s) := by
  intro limit c p next found
  obtain ⟨x, mid, y, first, second, rfl⟩ := readTo_both_matched.1 found
  obtain ⟨o₁, value₁, spans₁, reads₁⟩ := hr first
  obtain ⟨o₂, value₂, spans₂, reads₂⟩ := hs second
  refine ⟨o₁ ++ o₂, ⟨o₁, o₂, value₁, value₂, rfl⟩, spans₁.append spans₂, fun other fits => ?_⟩
  obtain ⟨fits₁, fits₂⟩ := fits.of_append spans₁ spans₂
  rw [readTo_both]
  exact (reads₁ other fits₁).handle ((reads₂ other fits₂).map (x, ·))

theorem seq {Q : β → Outline → Prop} {g : DdlRule (α → β)} {G : (α → β) → Outline → Prop}
    (hg : g.Nests calls G) (hr : r.Nests calls R)
    (values : ∀ f o x o', G f o → R x o' → Q (f x) (o ++ o')) : Nests calls Q (g <*> r) :=
  (hg.both hr).map fun p _ ⟨o₁, o₂, value₁, value₂, whole⟩ =>
    whole ▸ values p.1 o₁ p.2 o₂ value₁ value₂

theorem seqLeft {Q : α → Outline → Prop} (hr : r.Nests calls R) (hs : s.Nests calls S)
    (values : ∀ x o y o', R x o → S y o' → Q x (o ++ o')) : Nests calls Q (r <* s) :=
  (hr.both hs).map fun p _ ⟨o₁, o₂, value₁, value₂, whole⟩ =>
    whole ▸ values p.1 o₁ p.2 o₂ value₁ value₂

theorem seqRight {Q : β → Outline → Prop} (hr : r.Nests calls R) (hs : s.Nests calls S)
    (values : ∀ x o y o', R x o → S y o' → Q y (o ++ o')) : Nests calls Q (r *> s) :=
  (hr.both hs).map fun p _ ⟨o₁, o₂, value₁, value₂, whole⟩ =>
    whole ▸ values p.1 o₁ p.2 o₂ value₁ value₂

theorem nested (h : r.Nests calls R) :
    Nests calls (fun x o => ∃ inner, R x inner ∧ inner.deeper = o) (.nested r) := by
  intro limit c x next found
  obtain ⟨room, inner, first, rfl⟩ := readTo_nested_matched.1 found
  obtain ⟨o, value, spans, reads⟩ := h first
  refine ⟨o.deeper, ⟨o, value, rfl⟩, spans.deeper room, fun other fits => ?_⟩
  obtain ⟨room', fits⟩ := fits.of_deeper
  rw [readTo_nested, if_neg (Nat.not_le.2 room')]
  exact (reads other fits).handle (.inr rfl)

/-- The second alternative is read with more levels where the first one still fails early. -/
theorem either {s : DdlRule α} {S : α → Outline → Prop} (hr : r.Nests calls R)
    (hs : s.Nests calls S) (weaker : ∀ x o, S x o → R x o) (sheds : r.sheds 1 = true)
    (keeps : ∀ {limit other c next x o}, limit < other →
      (∀ t ∈ c.rest, t.Sound Keywords.mysql) → s.readTo limit calls c = .matched x next → S x o →
      o.Spans limit c next → o.nest ≤ other - c.depth → r.EarlyTo limit calls c →
        (r.readTo other calls c).FailsIfAny (c.pos + 1)) : Nests calls R (.either r s) := by
  intro limit c x next found
  rcases readTo_either_matched.1 found with first | ⟨f, failed, near, second⟩
  · obtain ⟨o, value, spans, reads⟩ := hr first
    refine ⟨o, value, spans, fun other fits => ?_⟩
    rw [readTo_either]
    exact (reads other fits).handle (.inr rfl)
  · obtain ⟨o, value, spans, reads⟩ := hs second
    refine ⟨o, weaker x o value, spans, fun other fits => ?_⟩
    have early : r.EarlyTo limit calls c := ⟨f, failed, near⟩
    have fails : (r.readTo other calls c).FailsIfAny (c.pos + 1) := by
      rcases Nat.lt_or_ge limit other with up | lower
      · exact keeps up (fits.sound up) second value spans fits.nest early
      · exact failsIfAny_of_le lower sheds early
    rw [readTo_either]
    refine fails.handle_matched fun g low => ?_
    rw [if_neg (by omega)]
    exact (reads other fits).handle (.inr rfl)

/-- The first alternative takes two tokens before it asks for a level. -/
theorem orElse {s : DdlRule α} (hr : r.Nests calls R) (hs : s.Nests calls R)
    (sheds : r.sheds 1 = true) (room : 2 ≤ r.room 0) : Nests calls R (r <|> s) :=
  hr.either hs (fun _ _ value => value) sheds fun _ _ _ _ _ _ early =>
    failsIfAny_of_room (Nat.zero_le 2) room (Nat.zero_le _) (Nat.zero_le _) early

/-- The alternatives do not begin with the same token. -/
theorem orElse_of_apart {s : DdlRule α} (hr : r.Nests calls R) (hs : s.Nests calls R)
    (sheds : r.sheds 1 = true) (apart : r.apart s = true) : Nests calls R (r <|> s) := by
  simp only [Rule.apart, Bool.and_eq_true, decide_eq_true_eq, List.all_eq_true,
    Bool.or_eq_true] at apart
  obtain ⟨⟨⟨⟨solid, some⟩, solid'⟩, some'⟩, apart⟩ := apart
  refine hr.either hs (fun _ _ value => value) sheds fun {_ _ c next _ _} _ sound found _ _ _ _ =>
    (failsIfAny_of_avoids solid some fun t ht first here => ?_).mono (Nat.le_succ _)
  obtain ⟨t', ht', first', here', taken⟩ := exists_lead solid' found (ne_of_readTo some' found)
  obtain rfl := Option.some.inj (here.symm.trans here')
  have sound := sound first (List.mem_of_mem_head? here)
  rcases apart t ht t' ht' with before | before
  · exact (Terminal.accept_eq_none_of_apart sound before).resolve_right taken
  · exact (Terminal.accept_eq_none_of_apart sound before).resolve_left taken

/-- The second alternative has enough levels where it begins with the word that the first one
begins with. -/
theorem orElse_of_levels {s : DdlRule α} {text : String} (levels : Nat) (hr : r.Nests calls R)
    (hs : s.Nests calls fun x o => R x o ∧ (text ∈ o.opens → levels ≤ o.nest))
    (sheds : r.sheds 1 = true) (known : text ∈ Outline.words) (leads : r.leads = [.literal text])
    (solid : r.solid = true) (some : 1 ≤ r.least) (some' : 1 ≤ s.least) (two : levels ≤ 2)
    (room : 2 ≤ r.room levels) : Nests calls R (r <|> s) :=
  hr.either hs (fun _ _ value => value.1) sheds
    fun {limit other c next x o} _ sound found value spans nest early => by
      by_cases heads : Heads text c.rest
      · have present : o.blank = false :=
          Bool.eq_false_iff.2 fun empty => ne_of_readTo some' found (spans.blank empty)
        have deep := value.2 (spans.opens sound present text known heads)
        have within := spans.within
        exact failsIfAny_of_room two room (by omega) (by omega) early
      · exact failsIfAny_of_not_heads leads solid some heads

/-- In parentheses only the readings up to a closing one count. -/
theorem parenthesized_of_closed (h : ∀ ⦃limit c x next⦄, r.readTo limit calls c = .matched x next →
      Heads ")" next.rest → ∃ o, R x o ∧ o.Spans limit c next ∧
        ∀ other, o.Fits limit other c next → (r.readTo other calls c).MatchesIfAny x next) :
    (Grammar.parenthesized r).Nests calls fun x o => ∃ inner, R x inner ∧ inner.enclosed = o := by
  have begins : (Grammar.literal "(").Nests calls fun _ o => o = Outline.opening ["("] :=
    .of_opensOnly ["("] (by decide)
  have ends : (Grammar.literal ")").Nests calls fun _ o => o = Outline.plain :=
    .of_opensOnly [] (by decide)
  intro limit c x next found
  change (Rule.map Prod.fst (.both (.map Prod.snd (.both (Grammar.literal "(") r))
    (Grammar.literal ")"))).readTo limit calls c = _ at found
  rw [readTo_map, Outcome.map_eq_matched_iff] at found
  obtain ⟨_, found, rfl⟩ := found
  obtain ⟨x, last, _, front, third, rfl⟩ := readTo_both_matched.1 found
  rw [readTo_map, Outcome.map_eq_matched_iff] at front
  obtain ⟨_, front, rfl⟩ := front
  obtain ⟨_, mid, x, first, second, rfl⟩ := readTo_both_matched.1 front
  obtain ⟨_, rfl, spans₁, reads₁⟩ := begins first
  obtain ⟨o, value, spans₂, reads₂⟩ := h second (heads_of_literal third)
  obtain ⟨_, rfl, spans₃, reads₃⟩ := ends third
  refine ⟨o.enclosed, ⟨o, value, rfl⟩, (spans₁.append spans₂).append spans₃, fun other fits => ?_⟩
  obtain ⟨fits, fits₃⟩ := fits.of_append (spans₁.append spans₂) spans₃
  obtain ⟨fits₁, fits₂⟩ := fits.of_append spans₁ spans₂
  change ((Rule.map Prod.fst (.both (.map Prod.snd (.both (Grammar.literal "(") r))
    (Grammar.literal ")"))).readTo other calls c).MatchesIfAny _ _
  rw [readTo_map, readTo_both, readTo_map, readTo_both]
  exact (((((reads₁ other fits₁).handle ((reads₂ other fits₂).map _)).map _).handle
    ((reads₃ other fits₃).map _)).map _)

theorem parenthesized (h : r.Nests calls R) : (Grammar.parenthesized r).Nests calls
    fun x o => ∃ inner, R x inner ∧ inner.enclosed = o :=
  parenthesized_of_closed fun _ _ _ _ found _ => h found

/-- In parentheses a list may be empty. -/
theorem parenthesized_commaList0 {S : List α → Outline → Prop}
    (h : (Grammar.commaList r).Nests calls S) (empty : S [] .nothing)
    (sheds : (Grammar.commaList r).sheds 1 = true) (solid : (Grammar.commaList r).solid = true)
    (some : 1 ≤ (Grammar.commaList r).least) (open' : .literal ")" ∉ (Grammar.commaList r).leads) :
    (Grammar.parenthesized (Grammar.commaList0 r)).Nests calls
      fun xs o => ∃ inner, S xs inner ∧ inner.enclosed = o := by
  refine parenthesized_of_closed fun limit c xs next found closed => ?_
  change (Rule.map (·.getD []) (Grammar.commaList r).optional).readTo limit calls c = _ at found
  rw [readTo_map, Outcome.map_eq_matched_iff] at found
  obtain ⟨v, found, rfl⟩ := found
  have again {other : Nat} {next : Cursor} (v : Option (List α))
      (same : ((Grammar.commaList r).optional.readTo other calls c).MatchesIfAny v next) :
      ((Grammar.commaList0 r).readTo other calls c).MatchesIfAny (v.getD []) next := by
    change ((Rule.map (·.getD []) (Grammar.commaList r).optional).readTo other calls c).MatchesIfAny
      _ _
    rw [readTo_map]
    exact same.map _
  rcases readTo_optional_matched.1 found with ⟨ys, first, rfl⟩ | ⟨f, failed, near, rfl, rfl⟩
  · obtain ⟨o, value, spans, reads⟩ := h first
    refine ⟨o, value, spans, fun other fits => again (.some ys) ?_⟩
    rw [readTo_optional]
    exact (reads other fits).handle (.inr rfl)
  · refine ⟨.nothing, empty, ⟨.refl c, Nat.zero_le _, nofun, fun _ => rfl, fun _ => nofun⟩,
      fun other fits => again none ?_⟩
    have fails : ((Grammar.commaList r).readTo other calls c).FailsIfAny (c.pos + 1) := by
      -- Under a higher limit nothing is read either, since no item begins with a parenthesis that
      -- closes; under a lower one the failure gets no further.
      rcases Nat.lt_or_ge limit other with up | lower
      · refine (failsIfAny_of_avoids solid some fun t ht first here => ?_).mono (Nat.le_succ _)
        obtain ⟨first', here', spells⟩ := closed
        obtain rfl := Option.some.inj (here.symm.trans here')
        obtain ⟨kind, text⟩ := Token.operator_of_spells
          (fits.sound up first (List.mem_of_mem_head? here)) (by decide) spells
        refine Option.eq_none_iff_forall_ne_some.2 fun value accepted => open' ?_
        rwa [← text, ← Terminal.eq_of_accept_operator kind accepted]
      · exact failsIfAny_of_le lower sheds ⟨f, failed, near⟩
    rw [readTo_optional]
    refine fails.handle_matched fun g low => ?_
    rw [if_neg (by omega)]
    exact .inr rfl

/-- Where nothing is read, the rule might be read with more levels, if there was none to spare and
the next token is one of those words. -/
theorem optional (texts : List String) (h : r.Nests calls R)
    (known : ∀ text ∈ texts, text ∈ Outline.words) (sheds : r.sheds 1 = true)
    (keeps : ∀ {limit other c}, limit < other →
      (∀ text ∈ texts, Heads text c.rest → text ≠ "(" ∧ 0 < limit - c.depth) →
        r.EarlyTo limit calls c → (r.readTo other calls c).FailsIfAny (c.pos + 1)) :
    Nests calls (fun v o => (v = none ∧ o = ⟨0, texts, [], [], true⟩) ∨
      ∃ x, v = some x ∧ R x o) r.optional := by
  intro limit c v next found
  rcases readTo_optional_matched.1 found with ⟨x, first, rfl⟩ | ⟨f, failed, near, rfl, rfl⟩
  · obtain ⟨o, value, spans, reads⟩ := h first
    refine ⟨o, .inr ⟨x, rfl, value⟩, spans, fun other fits => ?_⟩
    rw [readTo_optional]
    exact (reads other fits).handle (.inr rfl)
  · refine ⟨⟨0, texts, [], [], true⟩, .inl ⟨rfl, rfl⟩, ⟨.refl c, Nat.zero_le _, known,
      fun _ => rfl, fun _ => nofun⟩, fun other fits => ?_⟩
    have early : r.EarlyTo limit calls c := ⟨f, failed, near⟩
    have fails : (r.readTo other calls c).FailsIfAny (c.pos + 1) := by
      rcases Nat.lt_or_ge limit other with up | lower
      · exact keeps up (fun text awaits heads => fits.final up text (.inr ⟨awaits, heads⟩)) early
      · exact failsIfAny_of_le lower sheds early
    rw [readTo_optional]
    refine fails.handle_matched fun g low => ?_
    rw [if_neg (by omega)]
    exact .inr rfl

/-- What is optional takes two tokens before it asks for a level. -/
theorem optional_of_room (h : r.Nests calls R) (sheds : r.sheds 1 = true)
    (room : 2 ≤ r.room 0) : Nests calls (fun v o => (v = none ∧ o = .nothing) ∨
      ∃ x, v = some x ∧ R x o) r.optional :=
  h.optional [] nofun sheds fun _ _ early =>
    failsIfAny_of_room (Nat.zero_le 2) room (Nat.zero_le _) (Nat.zero_le _) early

/-- What is optional begins with the word and, if it is no parenthesis, takes two tokens before it
asks for a second level. -/
theorem optional_of_leads (text : String) (h : r.Nests calls R) (known : text ∈ Outline.words)
    (sheds : r.sheds 1 = true) (leads : r.leads = [.literal text]) (solid : r.solid = true)
    (some : 1 ≤ r.least) (room : text ≠ "(" → 2 ≤ r.room 1) :
    Nests calls (fun v o => (v = none ∧ o = .awaiting text) ∨ ∃ x, v = .some x ∧ R x o)
      r.optional :=
  h.optional [text] (by simpa using known) sheds fun {limit other c} up spare early => by
    by_cases heads : Heads text c.rest
    · obtain ⟨word, below⟩ := spare text List.mem_cons_self heads
      exact failsIfAny_of_room (Nat.le_succ 1) (room word) below (by omega) early
    · exact failsIfAny_of_not_heads leads solid some heads

/-- The rounds of a repetition, each of which takes some token and has room for two. -/
theorem of_rounds (h : r.Nests calls R) (some : 1 ≤ r.least) (sheds : r.sheds 1 = true)
    (two : levels ≤ 2) (room : 2 ≤ r.room levels)
    {go : Nat → Cursor → Outcome (List α)} {stuck : Cursor → Outcome (List α)}
    (round : ∀ limit, Repeats (r.readTo limit calls) stuck (go limit))
    {limit : Nat} {c next : Cursor} {xs : List α} (found : go limit c = .matched xs next)
    (below : levels ≤ limit - c.depth) :
    ∃ os, List.Forall₂ R xs os ∧ (Outline.sequence os).Spans limit c next ∧
      ∀ other, levels ≤ other - c.depth → (Outline.sequence os).Fits limit other c next →
        (go other c).MatchesIfAny xs next := by
  induction length : c.rest.length using Nat.strongRecOn generalizing c xs with
  | ind length' ih =>
    rw [round limit c] at found
    cases first : r.readTo limit calls c with
    | matched x mid =>
      have moved : mid.pos ≠ c.pos := by
        have := le_of_readTo first
        omega
      have reaches := reaches_of_readTo first
      have deep := depth_of_readTo first
      rw [first, Outcome.handle_matched, if_neg moved, Outcome.map_eq_matched_iff] at found
      obtain ⟨ys, later, rfl⟩ := found
      obtain ⟨o, value, spans, reads⟩ := h first
      obtain ⟨os, values, spans', reads'⟩ :=
        ih _ (length ▸ reaches.length_lt moved) later (deep ▸ below) rfl
      refine ⟨o :: os, .cons value values, spans.append spans', fun other below' fits => ?_⟩
      obtain ⟨fits₁, fits₂⟩ := fits.of_append spans spans'
      rw [round other c]
      refine (reads other fits₁).handle ?_
      rw [if_neg moved]
      exact (reads' other (deep ▸ below') fits₂).map (x :: ·)
    | failed f =>
      rw [first, Outcome.handle_failed] at found
      split at found
      · cases found
      · rename_i near
        obtain ⟨rfl, rfl⟩ := Outcome.matched.inj found
        refine ⟨[], .nil, ⟨.refl c, Nat.zero_le _, nofun, fun _ => rfl, fun _ => nofun⟩,
          fun other below' _ => ?_⟩
        have early : r.EarlyTo limit calls c := ⟨f, first, by omega⟩
        -- An early failure ends the repetition. Under a higher limit it is the same, since there is
        -- room for two tokens; under a lower one the rule gets no further.
        have fails : (r.readTo other calls c).FailsIfAny (c.pos + 1) := by
          rcases Nat.lt_or_ge limit other with up | lower
          · exact failsIfAny_of_room two room below below' early
          · exact failsIfAny_of_le lower sheds early
        rw [round other c]
        refine fails.handle_matched fun g low => ?_
        rw [if_neg (by omega)]
        exact .inr rfl
    | diverged =>
      rw [first] at found
      cases found

theorem many (h : r.Nests calls R) (some : 1 ≤ r.least) (sheds : r.sheds 1 = true)
    (room : 2 ≤ r.room 0) : Nests calls
      (fun xs o => ∃ os, List.Forall₂ R xs os ∧ Outline.sequence os = o) r.many := by
  intro limit c xs next found
  obtain ⟨os, values, spans, reads⟩ := h.of_rounds some sheds (Nat.zero_le 2) room
    (fun _ => repeats_readTo_many) found (Nat.zero_le _)
  exact ⟨_, ⟨os, values, rfl⟩, spans, fun other fits => reads other (Nat.zero_le _) fits⟩

/-- The separator is plain, and the item has room where there are as many levels as an item has. -/
theorem sepBy1 (levels : Nat) (hr : r.Nests calls R) (hs : s.Nests calls fun _ o => o = .plain)
    (deep : ∀ x o, R x o → levels ≤ o.nest) (two : levels ≤ 2)
    (room : 2 ≤ (s *> r).room levels) (sheds : (s *> r).sheds 1 = true)
    (some : 1 ≤ (s *> r).least) : Nests calls
      (fun xs o => ∃ os, List.Forall₂ R xs os ∧ Outline.joined os = o) (r.sepBy1 s) := by
  have follower : Nests calls (fun x o => ∃ inner, R x inner ∧ Outline.plain ++ inner = o)
      (s *> r) :=
    hs.seqRight hr fun _ _ x o value value' => ⟨o, value', by rw [value]⟩
  intro limit c xs next found
  obtain ⟨x, mid, ys, first, later, rfl⟩ := readTo_sepBy1_matched.1 found
  obtain ⟨o, value, spans, reads⟩ := hr first
  have depth := depth_of_readTo first
  have below : levels ≤ limit - mid.depth := by
    have := deep x o value
    have := spans.within
    rw [depth]
    omega
  obtain ⟨os, values, spans', reads'⟩ := follower.of_rounds some sheds two room
    (fun _ => repeats_followersTo) later below
  -- Each round is an item after a separator, which is plain.
  obtain ⟨items, same, rfl⟩ : ∃ items, List.Forall₂ R ys items ∧
      os = items.map (Outline.plain ++ ·) := by
    clear spans' reads' later found
    induction values with
    | nil => exact ⟨[], .nil, rfl⟩
    | cons head _ ih =>
      obtain ⟨inner, value, rfl⟩ := head
      obtain ⟨items, same, rfl⟩ := ih
      exact ⟨inner :: items, .cons value same, rfl⟩
  refine ⟨_, ⟨o :: items, .cons value same, rfl⟩, spans.append spans', fun other fits => ?_⟩
  obtain ⟨fits₁, fits₂⟩ := fits.of_append spans spans'
  have below' : levels ≤ other - mid.depth := by
    have := deep x o value
    have := fits₁.nest
    rw [depth]
    omega
  rw [readTo_sepBy1]
  exact (reads other fits₁).handle ((reads' other below' fits₂).map (x :: ·))

end Nests
end Rule
end TableDdl
