import TableDdl.Proofs.Grammar.Foresight
import TableDdl.Proofs.RoundTrip.ReadsBack
import TableDdl.Proofs.Token.Scanned

/-!
# Codecs

A codec of a rule tells how the values that the rule has read are written, and that what is
written reads back as the same value. Codecs are built as the rules are: what has to be checked
where two of them meet is decided by their edges and by the first terminals of a rule. A codec
computes whether all these checks hold, so one evaluation settles them for a whole rule.
-/
namespace TableDdl

variable {α β : Type}

/-- A text that the rule reads, where its value does not matter. -/
structure Mark (r : DdlRule α) (ls : List Lexeme) where
  edges : Edges
  /-- Whether the parts go together. -/
  coherent : Bool
  reads : coherent = true → ∀ calls depth, ∃ x, r.ReadsBack calls depth edges x (.plain ls)

/-- How the values of a rule are written. Only values that were read count, and those at the
depth where they were read. -/
structure Codec (r : DdlRule α) (writes : α → Written → Prop) where
  edges : Edges
  /-- Whether the parts go together. -/
  coherent : Bool
  written : ∀ {calls : Nat} {c next : Cursor} {x : α}, coherent = true →
    Scanned Keywords.mysql c.rest → r.read calls c = .matched x next →
    ∃ t, writes x t ∧ r.ReadsBack calls c.depth edges x t

namespace Writes

/-- Each value has one text. -/
def Exactly (text : α → Written) : α → Written → Prop := fun x t => t = text x

def Mapped (f : α → β) (W : α → Written → Prop) : β → Written → Prop :=
  fun y t => ∃ x, W x t ∧ f x = y

/-- The text of two values, one after the other. -/
def Paired (W : α → Written → Prop) (V : β → Written → Prop) : α × β → Written → Prop :=
  fun p t => ∃ u v, W p.1 u ∧ V p.2 v ∧ t = u ++ v

/-- The text of a function and that of its argument. -/
def Applied (W : (α → β) → Written → Prop) (V : α → Written → Prop) : β → Written → Prop :=
  fun y t => ∃ f x u v, W f u ∧ V x v ∧ f x = y ∧ t = u ++ v

def Before (W : α → Written → Prop) (ls : List Lexeme) : α → Written → Prop :=
  fun x t => ∃ u, W x u ∧ t = u ++ .plain ls

def After (ls : List Lexeme) (W : α → Written → Prop) : α → Written → Prop :=
  fun x t => ∃ u, W x u ∧ t = .plain ls ++ u

def Perhaps (W : α → Written → Prop) : Option α → Written → Prop
  | none, t => t = .nil
  | some x, t => W x t

def Either (W V : α → Written → Prop) : α → Written → Prop := fun x t => W x t ∨ V x t

def Repeated (W : α → Written → Prop) : List α → Written → Prop :=
  fun xs t => ∃ us, List.Forall₂ W xs us ∧ t = .concat us

/-- One value or more, with the lexemes between any two of them. -/
def Separated (separator : List Lexeme) (W : α → Written → Prop) : List α → Written → Prop :=
  fun xs t => xs ≠ [] ∧ ∃ us, List.Forall₂ W xs us ∧ t = .separated separator us

abbrev Listed (W : α → Written → Prop) : List α → Written → Prop := Separated [.symbol ","] W

theorem forall₂_exactly {text : α → Written} {xs : List α} {us : List Written} :
    List.Forall₂ (Exactly text) xs us ↔ us = xs.map text := by
  constructor
  · intro h
    induction h with
    | nil => rfl
    | cons first _ ih => rw [first, ih, List.map_cons]
  · rintro rfl
    rw [List.forall₂_map_right_iff, List.forall₂_same]
    exact fun x _ => rfl

end Writes

open Writes

theorem scanned_of_read {calls : Nat} {r : DdlRule α} {c next : Cursor} {x : α}
    (h : Scanned Keywords.mysql c.rest) (read : r.read calls c = .matched x next) :
    Scanned Keywords.mysql next.rest := by
  obtain ⟨taken, whole, -, -⟩ := Rule.reaches_of_read read
  rw [whole] at h
  exact h.of_append

theorem depth_of_read {calls : Nat} {r : DdlRule α} {c next : Cursor} {x : α}
    (read : r.read calls c = .matched x next) : next.depth = c.depth := by
  obtain ⟨_, -, -, depth⟩ := Rule.reaches_of_read read
  exact depth

/-- What holds of each value that is read in a round holds of all values of a repetition. -/
theorem forall_of_rounds {P : α → Prop} {r : DdlRule α} {calls : Nat} {c next : Cursor}
    {xs : List α} (scanned : Scanned Keywords.mysql c.rest) (rounds : Rule.Rounds calls r c xs next)
    (item : ∀ {c' mid : Cursor} {x : α}, c'.depth = c.depth → Scanned Keywords.mysql c'.rest →
      r.read calls c' = .matched x mid → P x) : ∀ x ∈ xs, P x := by
  induction rounds with
  | stop _ => simp
  | round first _ _ ih =>
    have later := ih (scanned_of_read scanned first) fun deep =>
      item (deep.trans (depth_of_read first))
    exact List.forall_mem_cons.2 ⟨item rfl scanned first, later⟩

theorem exists_forall₂ {R S : α → β → Prop} {xs : List α} (each : ∀ x ∈ xs, ∃ y, R x y ∧ S x y) :
    ∃ ys, List.Forall₂ R xs ys ∧ List.Forall₂ S xs ys := by
  induction xs with
  | nil => exact ⟨[], .nil, .nil⟩
  | cons x xs ih =>
    obtain ⟨⟨y, first, second⟩, others⟩ := List.forall_mem_cons.1 each
    obtain ⟨ys, left, right⟩ := ih others
    exact ⟨y :: ys, .cons first left, .cons second right⟩

namespace Mark

variable {r : DdlRule α} {s : DdlRule β} {ls ms : List Lexeme}

def map (f : α → β) (m : Mark r ls) : Mark (.map f r) ls where
  edges := m.edges
  coherent := m.coherent
  reads ok calls depth := by
    obtain ⟨x, back⟩ := m.reads ok calls depth
    exact ⟨f x, back.map f⟩

def both (m : Mark r ls) (n : Mark s ms) : Mark (.both r s) (ls ++ ms) where
  edges := m.edges.andThen n.edges
  coherent := m.coherent && n.coherent && m.edges.joins n.edges
  reads ok calls depth := by
    simp only [Bool.and_eq_true] at ok
    obtain ⟨⟨here, there⟩, joins⟩ := ok
    obtain ⟨x, first⟩ := m.reads here calls depth
    obtain ⟨y, second⟩ := n.reads there calls depth
    exact ⟨(x, y), first.both second joins⟩

/-- The second text after the first, where the value is that of the first. -/
def before (m : Mark r ls) (n : Mark s ms) : Mark (r <* s) (ls ++ ms) :=
  (m.both n).map Prod.fst

def after (m : Mark r ls) (n : Mark s ms) : Mark (r *> s) (ls ++ ms) :=
  (m.both n).map Prod.snd

/-- An optional part that is left out. -/
def skip (r : DdlRule α) : Mark r.optional [] where
  edges := .absent r.starts
  coherent := decide r.Starts
  reads ok _ _ :=
    have starts := of_decide_eq_true ok
    ⟨none, .absent starts.first_eq starts.solid⟩

/-- An optional part that is there. -/
def given (m : Mark r ls) : Mark r.optional ls where
  edges := m.edges
  coherent := m.coherent
  reads ok calls depth := by
    obtain ⟨x, back⟩ := m.reads ok calls depth
    exact ⟨some x, back.given⟩

def left (s : DdlRule α) (m : Mark r ls) : Mark (r <|> s) ls where
  edges := m.edges
  coherent := m.coherent
  reads ok calls depth := by
    obtain ⟨x, back⟩ := m.reads ok calls depth
    exact ⟨x, back.left⟩

/-- The second alternative, which the first refuses. -/
def right {s : DdlRule α} (r : DdlRule α) (n : Mark s ls) : Mark (r <|> s) ls where
  edges := n.edges
  coherent := n.coherent && decide r.Starts && n.edges.refusedBy r.starts
  reads ok calls depth := by
    simp only [Bool.and_eq_true, decide_eq_true_eq] at ok
    obtain ⟨⟨there, starts⟩, refused⟩ := ok
    obtain ⟨x, back⟩ := n.reads there calls depth
    exact ⟨x, back.refusing starts refused⟩

def word (text : String) : Mark (Grammar.literal text : DdlRule String) [.word text] where
  edges := .word text
  coherent := Text.isPlainWord text
  reads plain _ _ := ⟨text, .word plain⟩

def symbol (text : String) : Mark (Grammar.literal text : DdlRule String) [.symbol text] where
  edges := .symbol text
  coherent := decide (Lexeme.symbol text).Writable
  reads known _ _ := ⟨text, .symbol (of_decide_eq_true known)⟩

end Mark

namespace Codec

variable {r : DdlRule α} {W V : α → Written → Prop}

/-- The same codec, with what is written said in another way. -/
def restate (F : Codec r W) (h : ∀ x t, W x t → V x t) : Codec r V where
  edges := F.edges
  coherent := F.coherent
  written ok scanned read := by
    obtain ⟨t, writes, back⟩ := F.written ok scanned read
    exact ⟨t, h _ _ writes, back⟩

def map (f : α → β) (F : Codec r W) : Codec (f <$> r) (Mapped f W) where
  edges := F.edges
  coherent := F.coherent
  written ok scanned read := by
    obtain ⟨x, matched, rfl⟩ := Rule.map_matched_iff.1 read
    obtain ⟨t, writes, back⟩ := F.written ok scanned matched
    exact ⟨t, ⟨x, writes, rfl⟩, back.map f⟩

def pair {s : DdlRule β} {V : β → Written → Prop} (F : Codec r W) (G : Codec s V) :
    Codec (.both r s) (Paired W V) where
  edges := F.edges.andThen G.edges
  coherent := F.coherent && G.coherent && F.edges.joins G.edges
  written ok scanned read := by
    simp only [Bool.and_eq_true] at ok
    obtain ⟨⟨here, there⟩, joins⟩ := ok
    obtain ⟨mid, first, second⟩ := Rule.both_matched_iff.1 read
    obtain ⟨t, writes, back⟩ := F.written here scanned first
    obtain ⟨u, writes', back'⟩ := G.written there (scanned_of_read scanned first) second
    rw [depth_of_read first] at back'
    exact ⟨t ++ u, ⟨t, u, writes, writes', rfl⟩, back.both back' joins⟩

def seq {r : DdlRule (α → β)} {s : DdlRule α} {W : (α → β) → Written → Prop} (F : Codec r W)
    (G : Codec s V) : Codec (r <*> s) (Applied W V) :=
  ((F.pair G).map _).restate (by
    rintro _ _ ⟨⟨f, x⟩, ⟨t, u, writes, writes', rfl⟩, rfl⟩
    exact ⟨f, x, t, u, writes, writes', rfl, rfl⟩)

/-- A function and an argument, which may be written as another one with the same result. -/
def seqAs {r : DdlRule (α → β)} {s : DdlRule α} {W : (α → β) → Written → Prop}
    {V : β → Written → Prop} (F : Codec r W) (E : Edges)
    (again : ∀ {calls : Nat} {c next : Cursor} {x : α}, Scanned Keywords.mysql c.rest →
      s.read calls c = .matched x next → ∀ f t, W f t →
        ∃ y u, f y = f x ∧ V (f x) (t ++ u) ∧ s.ReadsBack calls c.depth E y u) :
    Codec (r <*> s) V where
  edges := F.edges.andThen E
  coherent := F.coherent && F.edges.joins E
  written ok scanned read := by
    simp only [Bool.and_eq_true] at ok
    obtain ⟨here, joins⟩ := ok
    obtain ⟨f, x, mid, first, second, rfl⟩ := Rule.seq_matched_iff.1 read
    obtain ⟨t, writes, back⟩ := F.written here scanned first
    obtain ⟨y, u, same, writes', back'⟩ := again (scanned_of_read scanned first) second f t writes
    rw [depth_of_read first] at back'
    refine ⟨t ++ u, writes', ?_⟩
    rw [← same]
    exact back.seq back' joins

/-- A value that is written as the value made of it. -/
def mapTo {text : α → Written} (f : α → β) (written : β → Written) (F : Codec r (Exactly text))
    (same : ∀ x, written (f x) = text x := by intro; rfl) : Codec (f <$> r) (Exactly written) :=
  (F.map f).restate (by
    rintro _ _ ⟨x, rfl, rfl⟩
    exact (same x).symm)

/-- Words before a value. -/
def after {s : DdlRule β} {ls : List Lexeme} (m : Mark s ls) (F : Codec r W) :
    Codec (s *> r) (After ls W) where
  edges := m.edges.andThen F.edges
  coherent := m.coherent && F.coherent && m.edges.joins F.edges
  written {calls c _ _} ok scanned read := by
    simp only [Bool.and_eq_true] at ok
    obtain ⟨⟨here, there⟩, joins⟩ := ok
    obtain ⟨y, mid, first, second⟩ := Rule.seqRight_matched_iff.1 read
    obtain ⟨t, writes, back⟩ := F.written there (scanned_of_read scanned first) second
    rw [depth_of_read first] at back
    obtain ⟨z, mark⟩ := m.reads here calls c.depth
    exact ⟨_, ⟨t, writes, rfl⟩, (mark.both back joins).map Prod.snd⟩

/-- A value with one text after words. -/
def led {s : DdlRule β} {ls : List Lexeme} {text : α → Written} (m : Mark s ls)
    (F : Codec r (Exactly text)) : Codec (s *> r) (Exactly fun x => .plain ls ++ text x) :=
  (F.after m).restate (by
    rintro x _ ⟨_, rfl, rfl⟩
    rfl)

/-- Words after a value. -/
def before {s : DdlRule β} {ms : List Lexeme} (F : Codec r W) (m : Mark s ms) :
    Codec (r <* s) (Before W ms) where
  edges := F.edges.andThen m.edges
  coherent := F.coherent && m.coherent && F.edges.joins m.edges
  written {calls c _ _} ok scanned read := by
    simp only [Bool.and_eq_true] at ok
    obtain ⟨⟨here, there⟩, joins⟩ := ok
    obtain ⟨y, mid, first, second⟩ := Rule.seqLeft_matched_iff.1 read
    obtain ⟨t, writes, back⟩ := F.written here scanned first
    obtain ⟨z, mark⟩ := m.reads there calls c.depth
    exact ⟨_, ⟨t, writes, rfl⟩, (back.both mark joins).map Prod.fst⟩

/-- A fixed value. -/
def as {ls : List Lexeme} (m : Mark r ls) (value : β) :
    Codec (r.as value) (fun y t => y = value ∧ t = .plain ls) where
  edges := m.edges
  coherent := m.coherent
  written {calls c _ _} ok _ read := by
    obtain ⟨_, -, rfl⟩ := Rule.map_matched_iff.1 read
    obtain ⟨z, mark⟩ := m.reads ok calls c.depth
    exact ⟨_, ⟨rfl, rfl⟩, mark.map _⟩

/-- A fixed value that is written as its text. -/
def asTo {ls : List Lexeme} (m : Mark r ls) (value : β) (written : β → Written)
    (same : written value = .plain ls := by rfl) : Codec (r.as value) (Exactly written) :=
  (as m value).restate (by
    rintro _ _ ⟨rfl, rfl⟩
    exact same.symm)

theorem within_orElse_left (E F : Edges) : E.Within (E.orElse F) where
  opens _ hs := List.mem_append_left _ hs
  follow _ ht := List.mem_append_left _ ht
  ends h := by simp [Edges.orElse, h]

theorem within_orElse_right (E F : Edges) : F.Within (E.orElse F) where
  opens _ hs := List.mem_append_right _ hs
  follow _ ht := List.mem_append_right _ ht
  ends h := by simp [Edges.orElse, h]

/-- Two alternatives, where the first refuses all texts of the second. -/
def either {s : DdlRule α} (F : Codec r W) (G : Codec s V) : Codec (r <|> s) (Either W V) where
  edges := F.edges.orElse G.edges
  coherent := F.coherent && G.coherent && decide r.Starts && G.edges.refusedBy r.starts
  written ok scanned read := by
    simp only [Bool.and_eq_true, decide_eq_true_eq] at ok
    obtain ⟨⟨⟨here, there⟩, starts⟩, refused⟩ := ok
    rcases Rule.either_matched_iff.1 read with matched | ⟨-, matched⟩
    · obtain ⟨t, writes, back⟩ := F.written here scanned matched
      exact ⟨t, .inl writes, back.left.within (within_orElse_left _ _)⟩
    · obtain ⟨t, writes, back⟩ := G.written there scanned matched
      exact ⟨t, .inr writes, (back.refusing starts refused).within (within_orElse_right _ _)⟩

/-- Two alternatives that write alike. -/
def orElse {s : DdlRule α} (F : Codec r W) (G : Codec s W) : Codec (r <|> s) W :=
  (F.either G).restate fun _ _ writes => writes.elim id id

/-- An alternative that is told by its first terminals. -/
structure Alternative (writes : α → Written → Prop) where
  rule : DdlRule α
  codec : Codec rule writes

def alternative (F : Codec r W) : Alternative W := ⟨r, F⟩

/-- No later alternative is taken for an earlier one. -/
abbrev Apart (alternatives : List (Alternative W)) : Prop :=
  alternatives.Pairwise fun a b => b.codec.edges.refusedBy a.rule.starts = true

theorem exists_of_read_oneOf {calls : Nat} {c next : Cursor} {x : α} {first : Alternative W}
    {others : List (Alternative W)}
    (read : (Rule.oneOf first.rule (others.map Alternative.rule)).read calls c = .matched x next) :
    ∃ a ∈ first :: others, a.rule.read calls c = .matched x next := by
  obtain ⟨s, mem, matched⟩ := Rule.exists_of_read_oneOf read
  rw [← List.map_cons] at mem
  obtain ⟨a, listed, rfl⟩ := List.mem_map.1 mem
  exact ⟨a, listed, matched⟩

theorem readsBack_oneOf {calls depth : Nat} {x : α} {t : Written} {E : Edges}
    {first a : Alternative W} {others : List (Alternative W)} (apart : Apart (first :: others))
    (starts : ∀ a ∈ first :: others, a.rule.Starts) (mem : a ∈ first :: others)
    (same : a.codec.edges = E) (back : a.rule.ReadsBack calls depth E x t) :
    (Rule.oneOf first.rule (others.map Alternative.rule)).ReadsBack calls depth E x t := by
  induction others generalizing first with
  | nil =>
    obtain rfl : a = first := by simpa using mem
    exact back
  | cons second others ih =>
    obtain ⟨apartHere, apartLater⟩ := List.pairwise_cons.1 apart
    rcases List.mem_cons.1 mem with rfl | later
    · exact back.left
    · obtain ⟨startsHere, startsLater⟩ := List.forall_mem_cons.1 starts
      exact (ih apartLater startsLater later).refusing startsHere (same ▸ apartHere a later)

/-- Several alternatives that write alike. -/
def choice (first : Alternative W) (others : List (Alternative W)) :
    Codec (.oneOf first.rule (others.map Alternative.rule)) W where
  edges := .any ((first :: others).map fun a => a.codec.edges)
  coherent := (first :: others).all (fun a => a.codec.coherent && decide a.rule.Starts) &&
    decide (Apart (first :: others))
  written ok scanned read := by
    simp only [Bool.and_eq_true, List.all_eq_true, decide_eq_true_eq] at ok
    obtain ⟨each, apart⟩ := ok
    obtain ⟨a, mem, matched⟩ := exists_of_read_oneOf read
    obtain ⟨t, writes, back⟩ := a.codec.written (each a mem).1 scanned matched
    have whole := readsBack_oneOf apart (fun a mem => (each a mem).2) mem rfl back
    exact ⟨t, writes, whole.within (Edges.within_any (List.mem_map.2 ⟨a, mem, rfl⟩))⟩

/-- Two alternatives that write alike, where the shapes of the first lexemes tell that the first
alternative fails early at the texts of the second. -/
def orForeseen {s : DdlRule α} (F : Codec r W) (G : Codec s V) (openings : List (List Shape))
    (opens : ∀ x t, V x t → ∃ ss ∈ openings, ss <+: t.lexemes.map Lexeme.shape) :
    Codec (r <|> s) (Either W V) where
  edges := F.edges.orElse G.edges
  coherent := F.coherent && G.coherent && openings.all fun ss => (r.foresee ss).isEarly
  written {calls c next x} ok scanned read := by
    simp only [Bool.and_eq_true, List.all_eq_true] at ok
    obtain ⟨⟨here, there⟩, refused⟩ := ok
    rcases Rule.either_matched_iff.1 read with matched | ⟨-, matched⟩
    · obtain ⟨t, writes, back⟩ := F.written here scanned matched
      exact ⟨t, .inl writes, back.left.within (within_orElse_left _ _)⟩
    · obtain ⟨t, writes, back⟩ := G.written there scanned matched
      refine ⟨t, .inr writes, (back.right fun good pos rest => ?_).within (within_orElse_right _ _)⟩
      obtain ⟨ss, mem, shapes⟩ := opens x t writes
      have shows : Cursor.Shows ⟨pos, tokensOf t.lexemes ++ rest, c.depth⟩ ss :=
        .of_isPrefix shapes (back.sound.writable good)
      exact Rule.failsEarly_of_foresee shows (refused ss mem)

/-- The edges of a part that may be left out. -/
def perhaps (E : Edges) (ts : List Terminal) : Edges := (Edges.absent ts).orElse E

def optional (F : Codec r W) : Codec r.optional (Perhaps W) where
  edges := perhaps F.edges r.starts
  coherent := F.coherent && decide r.Starts
  written ok scanned read := by
    simp only [Bool.and_eq_true, decide_eq_true_eq] at ok
    obtain ⟨here, starts⟩ := ok
    rcases Rule.optional_matched_iff.1 read with ⟨x, rfl, matched⟩ | ⟨rfl, -, -⟩
    · obtain ⟨t, writes, back⟩ := F.written here scanned matched
      exact ⟨t, writes, back.given.within (within_orElse_right _ _)⟩
    · exact ⟨.nil, rfl, .within (.absent starts.first_eq starts.solid) (within_orElse_left _ _)⟩

/-- Whether some words are there. -/
def flag {ls : List Lexeme} (m : Mark r ls) :
    Codec r.flag (Exactly fun b => if b then .plain ls else .nil) where
  edges := perhaps m.edges r.starts
  coherent := m.coherent && decide r.Starts
  written {calls c _ _} ok _ read := by
    simp only [Bool.and_eq_true, decide_eq_true_eq] at ok
    obtain ⟨here, starts⟩ := ok
    obtain ⟨o, matched, rfl⟩ := Rule.map_matched_iff.1 read
    cases o with
    | none =>
      exact ⟨.nil, rfl, .within (.map _ (.absent starts.first_eq starts.solid))
        (within_orElse_left _ _)⟩
    | some x =>
      obtain ⟨z, mark⟩ := m.reads here calls c.depth
      exact ⟨_, rfl, .within (mark.given.map _) (within_orElse_right _ _)⟩

theorem written_of_rounds (F : Codec r W) (ok : F.coherent = true) {calls : Nat}
    {c next : Cursor} {xs : List α} (rounds : Rule.Rounds calls r c xs next)
    (scanned : Scanned Keywords.mysql c.rest) :
    ∃ us, List.Forall₂ W xs us ∧ List.Forall₂ (r.ReadsBack calls c.depth F.edges) xs us := by
  refine exists_forall₂ (forall_of_rounds scanned rounds fun deep scanned read => ?_)
  rw [← deep]
  exact F.written ok scanned read

/-- The same where each value comes after something else. -/
theorem written_of_followers (F : Codec r W) (ok : F.coherent = true) {s : DdlRule β}
    {calls : Nat} {c next : Cursor} {xs : List α} (rounds : Rule.Rounds calls (s *> r) c xs next)
    (scanned : Scanned Keywords.mysql c.rest) :
    ∃ us, List.Forall₂ W xs us ∧ List.Forall₂ (r.ReadsBack calls c.depth F.edges) xs us := by
  refine exists_forall₂ (forall_of_rounds scanned rounds fun deep scanned read => ?_)
  obtain ⟨_, mid, before, item⟩ := Rule.seqRight_matched_iff.1 read
  rw [← deep, ← depth_of_read before]
  exact F.written ok (scanned_of_read scanned before) item

def many (F : Codec r W) : Codec r.many (Repeated W) where
  edges := F.edges.repeated r.starts
  coherent := F.coherent && decide r.Starts && F.edges.joins F.edges && F.edges.solid
  written ok scanned read := by
    simp only [Bool.and_eq_true, decide_eq_true_eq] at ok
    obtain ⟨⟨⟨here, starts⟩, joins⟩, solid⟩ := ok
    have rounds := (Rule.many_matched_iff (Rule.consumes_of_some starts.solid)).1 read
    obtain ⟨us, all, backs⟩ := F.written_of_rounds here rounds scanned
    exact ⟨_, ⟨us, all, rfl⟩,
      .many starts.first_eq starts.solid joins (Edges.none_notMem_opens solid) backs⟩

def commaList (F : Codec r W) : Codec (Grammar.commaList r) (Listed W) where
  edges := F.edges.listed
  coherent := F.coherent && F.edges.joins (.symbol ",") && F.edges.solid
  written {calls c next xs} ok scanned read := by
    simp only [Bool.and_eq_true] at ok
    obtain ⟨⟨here, joins⟩, solid⟩ := ok
    obtain ⟨x, mid, ys, rfl, first, rounds⟩ := Rule.sepBy1_matched_iff.1 read
    obtain ⟨t, writes, back⟩ := F.written here scanned first
    obtain ⟨us, all, backs⟩ := F.written_of_followers here rounds (scanned_of_read scanned first)
    rw [depth_of_read first] at backs
    exact ⟨_, ⟨by simp, t :: us, .cons writes all, rfl⟩,
      .commaList joins (Edges.none_notMem_opens solid) back backs⟩

theorem starts_commaList (starts : r.Starts) : (Grammar.commaList r).Starts := by
  constructor
  · rw [Grammar.commaList, Rule.first, starts.solid]
    exact starts.known
  · exact starts.solid

def parenthesized (F : Codec r W) :
    Codec (Grammar.parenthesized r) (Before (After [.symbol "("] W) [.symbol ")"]) :=
  (F.after (.symbol "(")).before (.symbol ")")

/-- A codec for the values of one kind, which have edges of their own. -/
structure On (kind : α → Bool) (which : Bool) (r : DdlRule α) (writes : α → Written → Prop) where
  edges : Edges
  /-- Whether the parts go together. -/
  coherent : Bool
  written : ∀ {calls : Nat} {c next : Cursor} {x : α}, coherent = true →
    Scanned Keywords.mysql c.rest → r.read calls c = .matched x next → kind x = which →
    ∃ t, writes x t ∧ r.ReadsBack calls c.depth edges x t

namespace On

variable {kind : α → Bool} {which : Bool}

def ofCodec (F : Codec r W) : On kind which r W where
  edges := F.edges
  coherent := F.coherent
  written ok scanned read _ := F.written ok scanned read

def restate (F : On kind which r W) (h : ∀ x t, W x t → V x t) : On kind which r V where
  edges := F.edges
  coherent := F.coherent
  written ok scanned read same := by
    obtain ⟨t, writes, back⟩ := F.written ok scanned read same
    exact ⟨t, h _ _ writes, back⟩

def map {kind : β → Bool} (f : α → β) (F : On (fun x => kind (f x)) which r W) :
    On kind which (f <$> r) (Mapped f W) where
  edges := F.edges
  coherent := F.coherent
  written ok scanned read same := by
    obtain ⟨x, matched, rfl⟩ := Rule.map_matched_iff.1 read
    obtain ⟨t, writes, back⟩ := F.written ok scanned matched same
    exact ⟨t, ⟨x, writes, rfl⟩, back.map f⟩

def either {s : DdlRule α} (F : On kind which r W) (G : On kind which s V) :
    On kind which (r <|> s) (Either W V) where
  edges := F.edges.orElse G.edges
  coherent := F.coherent && G.coherent && decide r.Starts && G.edges.refusedBy r.starts
  written ok scanned read same := by
    simp only [Bool.and_eq_true, decide_eq_true_eq] at ok
    obtain ⟨⟨⟨here, there⟩, starts⟩, refused⟩ := ok
    rcases Rule.either_matched_iff.1 read with matched | ⟨-, matched⟩
    · obtain ⟨t, writes, back⟩ := F.written here scanned matched same
      exact ⟨t, .inl writes, back.left.within (within_orElse_left _ _)⟩
    · obtain ⟨t, writes, back⟩ := G.written there scanned matched same
      exact ⟨t, .inr writes, (back.refusing starts refused).within (within_orElse_right _ _)⟩

/-- The rule has no values of the kind. -/
def never (other : ∀ x, kind x ≠ which) : On kind which r W where
  edges := ⟨[], [], false⟩
  coherent := true
  written _ _ _ same := absurd same (other _)

def after {s : DdlRule β} {ls : List Lexeme} (m : Mark s ls) (F : On kind which r W) :
    On kind which (s *> r) (After ls W) where
  edges := m.edges.andThen F.edges
  coherent := m.coherent && F.coherent && m.edges.joins F.edges
  written {calls c _ _} ok scanned read same := by
    simp only [Bool.and_eq_true] at ok
    obtain ⟨⟨here, there⟩, joins⟩ := ok
    obtain ⟨y, mid, first, second⟩ := Rule.seqRight_matched_iff.1 read
    obtain ⟨t, writes, back⟩ := F.written there (scanned_of_read scanned first) second same
    rw [depth_of_read first] at back
    obtain ⟨z, mark⟩ := m.reads here calls c.depth
    exact ⟨_, ⟨t, writes, rfl⟩, (mark.both back joins).map Prod.snd⟩

/-- The kind is that of the argument. -/
def seq {r : DdlRule (α → β)} {s : DdlRule α} {kind' : β → Bool} {W : (α → β) → Written → Prop}
    (F : Codec r W) (G : On kind which s V) (own : ∀ f t x, W f t → kind' (f x) = kind x) :
    On kind' which (r <*> s) (Applied W V) where
  edges := F.edges.andThen G.edges
  coherent := F.coherent && G.coherent && F.edges.joins G.edges
  written ok scanned read same := by
    simp only [Bool.and_eq_true] at ok
    obtain ⟨⟨here, there⟩, joins⟩ := ok
    obtain ⟨f, x, mid, first, second, rfl⟩ := Rule.seq_matched_iff.1 read
    obtain ⟨t, writes, back⟩ := F.written here scanned first
    rw [own f t x writes] at same
    obtain ⟨u, writes', back'⟩ := G.written there (scanned_of_read scanned first) second same
    rw [depth_of_read first] at back'
    exact ⟨t ++ u, ⟨f, x, t, u, writes, writes', rfl, rfl⟩, back.seq back' joins⟩

/-- Values that end with an optional part which is there. -/
def given {r : DdlRule (Option α → β)} {s : DdlRule α} {kind : β → Bool} {text : α → Written}
    {W : (Option α → β) → Written → Prop} (F : Codec r W) (G : Codec s (Exactly text))
    (given : ∀ f t, W f t → kind (f none) ≠ which) :
    On kind which (r <*> s.optional) (Applied W (Exactly fun o => o.elim .nil text)) where
  edges := F.edges.andThen G.edges
  coherent := F.coherent && G.coherent && F.edges.joins G.edges
  written ok scanned read same := by
    simp only [Bool.and_eq_true] at ok
    obtain ⟨⟨here, there⟩, joins⟩ := ok
    obtain ⟨f, o, mid, first, second, rfl⟩ := Rule.seq_matched_iff.1 read
    obtain ⟨t, writes, back⟩ := F.written here scanned first
    rcases Rule.optional_matched_iff.1 second with ⟨x, rfl, present⟩ | ⟨rfl, -, -⟩
    · obtain ⟨_, rfl, back'⟩ := G.written there (scanned_of_read scanned first) present
      rw [depth_of_read first] at back'
      exact ⟨t ++ text x, ⟨f, some x, t, text x, writes, rfl, rfl, rfl⟩,
        (back.both back'.given joins).map _⟩
    · exact absurd same (given f t writes)

end On

end Codec
end TableDdl
