import TableDdl.Proofs.Grammar.Accepting
import TableDdl.Proofs.Grammar.First
import TableDdl.Proofs.Grammar.Leftover

/-!
# Texts that go on

What a rule reads at the end of a text may change when the text goes on, but only if the rule asks
there for the token that comes next. For a class of marked terminals it can be read off a rule how
near to the end it may do so. A rule that has gone further by then fails for good, so other
alternatives and shorter readings do not come into play.
-/
namespace TableDdl

variable {N : Type → Type} {α β : Type}

/-- What may hang on a marked token behind the end of a text. -/
structure Margin where
  /-- The fewest tokens that are taken. -/
  least : Nat
  /-- There may be a failure for want of the token, with nothing left before it. -/
  failsAtEnd : Bool
  /-- There may be one with a single token left before it. -/
  failsAtLast : Bool
  /-- The fewest tokens with which there may be a match up to the end that could go on. -/
  ends : Option Nat
deriving DecidableEq

namespace Margin

/-- Whether there may be a failure for want of the token with so many tokens before it. -/
def mayFail (m : Margin) : Nat → Bool
  | 0 => m.failsAtEnd
  | 1 => m.failsAtLast
  | _ => true

/-- Whether there may be a match of so many tokens that could go on. -/
def mayEnd (m : Margin) (length : Nat) : Bool := m.ends.any (· ≤ length)

/-- An alternative, an option or a round that fails is final, except at the very end. -/
def lastsOnce (m : Margin) : Bool := !m.failsAtLast

/-- A failure is final. -/
def lasts (m : Margin) : Bool := !m.failsAtEnd && !m.failsAtLast

def fewest : Option Nat → Option Nat → Option Nat
  | none, o => o
  | o, none => o
  | some m, some n => some (min m n)

def both (m m' : Margin) : Margin where
  least := m.least + m'.least
  failsAtEnd := m.failsAtEnd || m.least == 0 && m'.failsAtEnd || m.mayEnd 0
  failsAtLast := m.failsAtLast || m.least == 0 && m'.failsAtLast ||
    decide (m.least ≤ 1) && m'.failsAtEnd || m.mayEnd 1
  ends := fewest (m'.ends.map (m.least + ·)) (if m'.least = 0 then m.ends else none)

def either (m m' : Margin) : Margin where
  least := min m.least m'.least
  failsAtEnd := m.failsAtEnd || m'.failsAtEnd
  failsAtLast := m.failsAtLast || m'.failsAtLast
  ends := fewest m.ends m'.ends

/-- Any number of times, or at most once. -/
def orNone (m : Margin) : Margin where
  least := 0
  failsAtEnd := false
  failsAtLast := false
  ends := if m.failsAtEnd then some 0 else m.ends

/-- What is known of a rule with a name: it takes a token, fails for good where it can, and may match
up to the end after two tokens. -/
def named : Margin := ⟨1, false, false, some 2⟩

/-- Whether the margin is within that of a rule with a name. -/
def isNamed (m : Margin) : Bool := decide (1 ≤ m.least) && m.lasts && m.ends.all (2 ≤ ·)

theorem any_fewest {o o' : Option Nat} {n : Nat} :
    (fewest o o').any (· ≤ n) = (o.any (· ≤ n) || o'.any (· ≤ n)) := by
  cases o with
  | none => rfl
  | some m =>
    cases o' with
    | none => simp [fewest]
    | some m' =>
      have : min m m' ≤ n ↔ m ≤ n ∨ m' ≤ n := by omega
      simp [fewest, this]

theorem mayEnd_both {m m' : Margin} {n : Nat} : (m.both m').mayEnd n =
    (m'.ends.any (m.least + · ≤ n) || m'.least == 0 && m.mayEnd n) := by
  simp only [mayEnd, both, any_fewest]
  congr 1
  · cases m'.ends <;> rfl
  · by_cases empty : m'.least = 0 <;> simp [empty]

theorem mayEnd_either {m m' : Margin} {n : Nat} :
    (m.either m').mayEnd n = (m.mayEnd n || m'.mayEnd n) := any_fewest

theorem mayEnd_orNone {m : Margin} {n : Nat} (h : m.failsAtEnd = true ∨ m.mayEnd n = true) :
    m.orNone.mayEnd n = true := by
  simp only [mayEnd, orNone] at *
  split
  · simp
  · rcases h with h | h
    · contradiction
    · exact h

theorem mayEnd_mono {m : Margin} {n n' : Nat} (h : m.mayEnd n = true) (le : n ≤ n') :
    m.mayEnd n' = true := by
  unfold mayEnd at *
  cases ends : m.ends with
  | none => simp [ends] at h
  | some k =>
    simp only [ends, Option.any_some, decide_eq_true_eq] at h ⊢
    omega

theorem mayFail_of_two_le {m : Margin} {n : Nat} (h : 2 ≤ n) : m.mayFail n = true := by
  match n, h with
  | n + 2, _ => rfl

theorem mayEnd_named {m : Margin} {n : Nat} (h : m.isNamed = true) (may : m.mayEnd n = true) :
    named.mayEnd n = true := by
  simp only [isNamed, Bool.and_eq_true] at h
  unfold mayEnd at *
  cases ends : m.ends with
  | none => simp [ends] at may
  | some k =>
    have near : k ≤ n := by simpa [ends] using may
    have far : 2 ≤ k := by simpa [ends] using h.2
    simp only [named, Option.any_some, decide_eq_true_eq]
    omega

theorem two_le_of_mayFail {m : Margin} {n : Nat} (lasts : m.lasts = true)
    (h : m.mayFail n = true) : 2 ≤ n := by
  simp only [Margin.lasts, Bool.and_eq_true, Bool.not_eq_true'] at lasts
  match n, h with
  | 0, h => rw [mayFail, lasts.1] at h; cases h
  | 1, h => rw [mayFail, lasts.2] at h; cases h
  | n + 2, _ => omega

theorem of_mayFail_of_lastsOnce {m : Margin} {n : Nat} (lasts : m.lastsOnce = true)
    (h : m.mayFail n = true) : n = 0 ∧ m.failsAtEnd = true ∨ 2 ≤ n := by
  simp only [lastsOnce, Bool.not_eq_true'] at lasts
  match n, h with
  | 0, h => exact .inl ⟨rfl, h⟩
  | 1, h => rw [mayFail, lasts] at h; cases h
  | n + 2, _ => exact .inr (by omega)

theorem mayFail_both_left {m m' : Margin} {n : Nat} (h : m.mayFail n = true ∨ m.mayEnd n = true) :
    (m.both m').mayFail n = true := by
  match n with
  | 0 => rcases h with h | h <;> simp_all [mayFail, both]
  | 1 => rcases h with h | h <;> simp_all [mayFail, both]
  | n + 2 => rfl

theorem mayFail_both_right {m m' : Margin} {n k : Nat} (least : m.least ≤ k)
    (h : m'.mayFail n = true) : (m.both m').mayFail (k + n) = true := by
  match k, n, h with
  | 0, 0, h => simp_all [mayFail, both]
  | 0, 1, h => simp_all [mayFail, both]
  | 1, 0, h => simp_all [mayFail, both]
  | 1, n + 1, _ => exact mayFail_of_two_le (by omega)
  | 0, n + 2, _ => exact mayFail_of_two_le (by omega)
  | k + 2, _, _ => exact mayFail_of_two_le (by omega)

theorem mayEnd_both_left {m m' : Margin} {n : Nat} (empty : m'.least = 0)
    (h : m.mayEnd n = true) : (m.both m').mayEnd n = true := by
  simp [mayEnd_both, empty, h]

theorem mayEnd_both_right {m m' : Margin} {n k : Nat} (least : m.least ≤ k)
    (h : m'.mayEnd n = true) : (m.both m').mayEnd (k + n) = true := by
  rw [mayEnd_both]
  unfold mayEnd at h
  cases ends : m'.ends with
  | none => simp [ends] at h
  | some j =>
    have : j ≤ n := by simpa [ends] using h
    simp only [Option.any_some, Bool.or_eq_true, decide_eq_true_eq]
    exact .inl (by omega)

theorem mayFail_either {m m' : Margin} {n : Nat} (h : m.mayFail n = true ∨ m'.mayFail n = true) :
    (m.either m').mayFail n = true := by
  match n with
  | 0 => simpa [mayFail, either] using h
  | 1 => simpa [mayFail, either] using h
  | n + 2 => rfl

end Margin

namespace Rule

variable (mark : Terminal → Bool)

def margin {α : Type} : Rule N α → Margin
  | .token t => ⟨1, mark t, false, none⟩
  | .atEnd => ⟨0, false, false, some 0⟩
  | .call _ => .named
  | .map _ r => r.margin
  | .convert _ r => r.margin
  | .both a b => a.margin.both b.margin
  | .either a b => a.margin.either b.margin
  | .optional r => r.margin.orNone
  | .many r => r.margin.orNone
  | .sepBy1 item separator =>
    item.margin.both (separator.margin.both item.margin).orNone
  | .nested r => r.margin

/-- Where another way is open after a failure, the failure is none for want of a marked token. -/
def steady {α : Type} : Rule N α → Bool
  | .token _ => true
  | .atEnd => true
  | .call _ => true
  | .map _ r => r.steady
  | .convert _ r => r.isToken && (r.margin mark).lasts
  | .both a b => a.steady && b.steady
  | .either a b => a.steady && b.steady && (a.margin mark).lasts
  | .optional r => r.steady && (r.margin mark).lastsOnce
  | .many r => r.steady && (r.margin mark).lastsOnce
  | .sepBy1 item separator => item.steady && separator.steady &&
    ((separator.margin mark).both (item.margin mark)).lastsOnce
  | .nested r => r.steady

end Rule

/-- The outcome at the end of a text, and the outcome where more tokens follow: the second is the
first with those left over, unless the first depends on what follows. -/
inductive Outcome.Beside (m : Margin) (more : List Token) (c : Cursor) :
    Outcome α → Outcome α → Prop
  | same (o : Outcome α) : Beside m more c o (o.extend more)
  | failed {f : Failure} (o' : Outcome α) : f.pos = c.pos + c.rest.length →
      m.mayFail c.rest.length = true → Beside m more c (.failed f) o'
  | ended {x : α} {next : Cursor} (o' : Outcome α) : next.rest = [] →
      m.mayEnd c.rest.length = true → Beside m more c (.matched x next) o'
  | diverged (o' : Outcome α) : Beside m more c .diverged o'

namespace Outcome.Beside

variable {m m' : Margin} {more : List Token} {c mid : Cursor} {o o' : Outcome α}

theorem handle {k k' : α → Cursor → Outcome β} {r r' : Failure → Outcome β}
    (h : o.Beside m more c o')
    (matched : ∀ x next, o = .matched x next →
      (k x next).Beside m' more c (k' x (next.extend more)))
    (failed : ∀ f, o = .failed f → (r f).Beside m' more c (r' f))
    (lacking : ∀ f, f.pos = c.pos + c.rest.length → m.mayFail c.rest.length = true →
      ∀ p, (r f).Beside m' more c p)
    (ended : ∀ x next, o = .matched x next → next.rest = [] → m.mayEnd c.rest.length = true →
      ∀ p, (k x next).Beside m' more c p) :
    (o.handle k r).Beside m' more c (o'.handle k' r') := by
  cases h with
  | same =>
    cases o with
    | matched x next => exact matched x next rfl
    | failed f => exact failed f rfl
    | diverged => exact .diverged _
  | failed _ atEnd may => exact lacking _ atEnd may _
  | ended _ atEnd may => exact ended _ _ rfl atEnd may _
  | diverged => exact .diverged _

theorem map (f : α → β) (h : o.Beside m more c o') :
    (o.map f).Beside m more c (o'.map f) := by
  cases h with
  | same => rw [← extend_map]; exact .same _
  | failed _ atEnd may => exact .failed _ atEnd may
  | ended _ atEnd may => exact .ended _ atEnd may
  | diverged => exact .diverged _

/-- What is beside each other after some tokens is so before them. -/
theorem after (reach : c.Reaches mid) (h : o.Beside m more mid o')
    (fails : m.mayFail mid.rest.length = true → m'.mayFail c.rest.length = true)
    (ends : m.mayEnd mid.rest.length = true → m'.mayEnd c.rest.length = true) :
    o.Beside m' more c o' := by
  have total := reach.total
  cases h with
  | same => exact .same _
  | failed _ atEnd may => exact .failed _ (by omega) (fails may)
  | ended _ atEnd may => exact .ended _ atEnd (ends may)
  | diverged => exact .diverged _

theorem of_depth {d : Nat} (h : o.Beside m more { c with depth := d } o') :
    o.Beside m more c o' := by
  cases h with
  | same => exact .same _
  | failed _ atEnd may => exact .failed _ atEnd may
  | ended _ atEnd may => exact .ended _ atEnd may
  | diverged => exact .diverged _

end Outcome.Beside

/-- A way to read that moves forward and takes at least so many tokens. What it makes of a text that
goes on is as the margin tells. -/
structure Prolongs (more : List Token) (m : Margin) (read : Cursor → Outcome α) : Prop where
  ahead : ∀ c, (read c).Ahead c
  least : ∀ {c x next}, read c = .matched x next → c.pos + m.least ≤ next.pos
  beside : ∀ c, (read c).Beside m more c (read (c.extend more))

namespace Prolongs

variable {γ : Type} {more : List Token} {m m' : Margin} {a : Cursor → Outcome α}
  {b : Cursor → Outcome β} {c next : Cursor}

theorem reaches (ha : Prolongs more m a) {x : α} (read : a c = .matched x next) :
    c.Reaches next := by
  have ahead := ha.ahead c
  rwa [read] at ahead

theorem failure (ha : Prolongs more m a) {f : Failure} (failed : a c = .failed f) :
    c.pos ≤ f.pos ∧ f.pos ≤ c.pos + c.rest.length := by
  have ahead := ha.ahead c
  rwa [failed] at ahead

/-- At the end of a text a match takes nothing. -/
theorem rest_of_end (ha : Prolongs more m a) {x : α} (ended : c.rest = [])
    (read : a c = .matched x next) : next.rest = [] ∧ next.pos = c.pos := by
  have reach := ha.reaches read
  have total := reach.total
  have := reach.le
  rw [ended, List.length_nil] at total
  exact ⟨List.eq_nil_of_length_eq_zero (by omega), by omega⟩

theorem map (ha : Prolongs more m a) (f : α → β) : Prolongs more m fun c => (a c).map f where
  ahead c := (ha.ahead c).map f
  least read := by
    obtain ⟨x, matched, -⟩ := Outcome.map_eq_matched_iff.1 read
    exact ha.least matched
  beside c := (ha.beside c).map f

theorem congr (ha : Prolongs more m a) {a' : Cursor → Outcome α} (same : ∀ c, a' c = a c) :
    Prolongs more m a' := by
  obtain rfl : a' = a := funext same
  exact ha

theorem named (ha : Prolongs more m a) (h : m.isNamed = true) : Prolongs more .named a where
  ahead := ha.ahead
  least read := by
    have := ha.least read
    simp only [Margin.isNamed, Bool.and_eq_true, decide_eq_true_eq] at h
    simp only [Margin.named]
    omega
  beside c := (ha.beside c).after (.refl c) (fun may => by
      simp only [Margin.isNamed, Bool.and_eq_true] at h
      exact Margin.mayFail_of_two_le (Margin.two_le_of_mayFail h.1.2 may))
    (Margin.mayEnd_named h)

/-- One way to read and then another. -/
theorem both (ha : Prolongs more m a) (hb : Prolongs more m' b) (f : α → β → γ) :
    Prolongs more (m.both m') fun c => (a c).handle (fun x mid => (b mid).map (f x)) .failed where
  ahead c := (ha.ahead c).handle (fun x mid reach => .of_reaches reach ((hb.ahead mid).map _))
    fun _ within => within
  least {c z next} read := by
    cases first : a c with
    | matched x mid =>
      simp only [first, Outcome.handle_matched] at read
      obtain ⟨y, second, -⟩ := Outcome.map_eq_matched_iff.1 read
      have := ha.least first
      have := hb.least second
      simp only [Margin.both]
      omega
    | failed f => simp [first] at read
    | diverged => simp [first] at read
  beside c := by
    refine (ha.beside c).handle (fun x mid read => ?_) (fun f _ => .same (.failed f))
      (fun f atEnd may p => .failed p atEnd (Margin.mayFail_both_left (.inl may)))
      fun x mid read ended may p => ?_
    · have taken := ha.least read
      have reach := ha.reaches read
      have total := reach.total
      obtain ⟨k, length⟩ : ∃ k, c.rest.length = k + mid.rest.length := ⟨mid.pos - c.pos, by omega⟩
      refine ((hb.beside mid).map _).after reach (fun may => ?_) fun may => ?_
      · rw [length]
        exact Margin.mayFail_both_right (by omega) may
      · rw [length]
        exact Margin.mayEnd_both_right (by omega) may
    · have total := (ha.reaches read).total
      cases second : b mid with
      | matched y next =>
        obtain ⟨behind, here⟩ := hb.rest_of_end ended second
        have taken := hb.least second
        exact .ended _ behind (Margin.mayEnd_both_left (by omega) may)
      | failed g =>
        obtain ⟨low, high⟩ := hb.failure second
        rw [ended, List.length_nil] at total high
        exact .failed _ (by omega) (Margin.mayFail_both_left (.inr may))
      | diverged => exact .diverged _

/-- At the end of a text a repetition stops. -/
theorem rounds_of_end {rounds stuck : Cursor → Outcome (List α)}
    (h : Repeats a stuck rounds) (ha : Prolongs more m a)
    (stops : stuck c = .matched [] c ∨ stuck c = .diverged)
    (ended : c.rest = []) : rounds c = .matched [] c ∨ rounds c = .diverged := by
  rw [h c]
  cases front : a c with
  | matched x next => simpa [(ha.rest_of_end ended front).2] using stops
  | failed f =>
    have := (ha.failure front).2
    rw [ended, List.length_nil] at this
    exact .inl (if_neg (by omega))
  | diverged => exact .inr rfl

/-- A round that takes the last token is the last one. -/
theorem round_of_end {rounds stuck : Cursor → Outcome (List α)} {x : α}
    (h : Repeats a stuck rounds) (ha : Prolongs more m a)
    (stops : ∀ c, stuck c = .matched [] c ∨ stuck c = .diverged)
    (read : a c = .matched x next) (ended : next.rest = []) :
    (∃ xs last, last.rest = [] ∧
      (if next.pos = c.pos then stuck c else (rounds next).map (x :: ·)) = .matched xs last) ∨
      (if next.pos = c.pos then stuck c else (rounds next).map (x :: ·)) = .diverged := by
  by_cases stays : next.pos = c.pos
  · have total := (ha.reaches read).total
    rw [ended, List.length_nil] at total
    rw [if_pos stays]
    exact (stops c).imp_left fun same =>
      ⟨[], c, List.eq_nil_of_length_eq_zero (by omega), same⟩
  · rw [if_neg stays]
    rcases rounds_of_end h ha (stops next) ended with same | same
    · exact .inl ⟨[x], next, ended, by rw [same]; rfl⟩
    · exact .inr (by rw [same]; rfl)

/-- The rounds of a repetition, or what follows the first item of a list. -/
theorem rounds {rounds stuck : Cursor → Outcome (List α)}
    (h : Repeats a stuck rounds)
    (stops : (∀ c, stuck c = .matched [] c) ∨ ∀ c, stuck c = .diverged)
    (ahead : ∀ c, (rounds c).Ahead c) (ha : Prolongs more m a) (lasts : m.lastsOnce = true) :
    Prolongs more m.orNone rounds := by
  refine ⟨ahead, fun {c x next} read => ?_, fun c => ?_⟩
  · have ahead := ahead c
    rw [read] at ahead
    exact ahead.le
  -- On what is left of the text. In front of more tokens a round comes out the same, unless it got
  -- to the end of the text, and then the repetition got there too.
  induction length : c.rest.length using Nat.strongRecOn generalizing c with
  | ind n ih =>
    have stop (c : Cursor) : stuck c = .matched [] c ∨ stuck c = .diverged :=
      stops.imp (· c) (· c)
    rw [h c, h (c.extend more), Cursor.pos_extend]
    refine (ha.beside c).handle (fun x next read => ?_) (fun f _ => ?_) (fun f atEnd may p => ?_)
      fun x next read ended may p => ?_
    · rw [Cursor.pos_extend]
      by_cases stays : next.pos = c.pos
      · rw [if_pos stays, if_pos stays]
        rcases stops with stops | stops
        · rw [stops, stops]
          exact .same (.matched [] c)
        · rw [stops, stops]
          exact .diverged _
      · rw [if_neg stays, if_neg stays]
        have reach := ha.reaches read
        have shorter := reach.length_lt stays
        refine ((ih _ (length ▸ shorter) next rfl).map _).after reach (fun may => ?_) fun may =>
          Margin.mayEnd_mono may (by omega)
        have := Margin.two_le_of_mayFail (m := m.orNone) rfl may
        exact Margin.mayFail_of_two_le (by omega)
    · by_cases late : c.pos + 1 < f.pos
      · rw [if_pos late, if_pos late]
        exact .same (.failed f)
      · rw [if_neg late, if_neg late]
        exact .same (.matched [] c)
    · rcases Margin.of_mayFail_of_lastsOnce lasts may with ⟨none, lacks⟩ | many
      · rw [if_neg (by omega)]
        exact .ended p (List.eq_nil_of_length_eq_zero none) (Margin.mayEnd_orNone (.inl lacks))
      · rw [if_pos (by omega)]
        exact .failed p atEnd (Margin.mayFail_of_two_le many)
    · have may := Margin.mayEnd_orNone (.inr may)
      rcases round_of_end h ha stop read ended with ⟨_, _, behind, same⟩ | same
      · rw [same]
        exact .ended p behind may
      · rw [same]
        exact .diverged p

end Prolongs

namespace Rule

variable {calls : Nat} {mark : Terminal → Bool} {more : List Token} {m m' : Margin}
  {r : DdlRule α} {s : DdlRule β} {c next : Cursor}

theorem ahead_read (calls : Nat) (r : DdlRule α) (c : Cursor) : (r.read calls c).Ahead c :=
  forward_read calls r c

theorem prolongs_token {t : Terminal} (mark : Terminal → Bool)
    (refused : ∀ first ∈ more.head?, mark t = false → t.accept Keywords.mysql first = none) :
    Prolongs more ⟨1, mark t, false, none⟩ ((Rule.token t : DdlRule String).read calls) where
  ahead := ahead_read calls _
  least read := by
    obtain ⟨_, _, -, -, rfl⟩ := token_matched_iff.1 read
    exact Nat.le_refl _
  beside := by
    rintro ⟨pos, rest, depth⟩
    rw [read_token, read_token]
    cases rest with
    | nil =>
      cases marked : mark t with
      | true => exact .failed _ rfl rfl
      | false =>
        cases more with
        | nil => exact .same _
        | cons first more =>
          simp only [Cursor.extend, List.nil_append, refused first rfl marked]
          exact .same _
    | cons first rest =>
      simp only [Cursor.extend, List.cons_append]
      cases t.accept Keywords.mysql first <;> exact .same _

theorem prolongs_atEnd :
    Prolongs more ⟨0, false, false, some 0⟩ ((Rule.atEnd : DdlRule Unit).read calls) where
  ahead := ahead_read calls _
  least read := (reaches_of_read read).le
  beside := by
    rintro ⟨pos, rest, depth⟩
    simp only [read, Engine.answer, Engine.run_atEnd, Engine.atEnd]
    cases rest with
    | nil => exact .ended _ rfl rfl
    | cons first rest => exact .same (.failed _)

/-- A value is converted from one token, which is none of those behind the end. -/
theorem prolongs_convert {t : Terminal} (f : String → Except String α)
    (refused : ∀ first ∈ more.head?, t.accept Keywords.mysql first = none) :
    Prolongs more ⟨1, false, false, none⟩ ((Rule.convert f (.token t)).read calls) where
  ahead := ahead_read calls _
  least read := by
    obtain ⟨_, matched, -⟩ := convert_matched_iff.1 read
    obtain ⟨_, _, -, -, rfl⟩ := token_matched_iff.1 matched
    exact Nat.le_refl _
  beside c := by
    have inside : Prolongs more ⟨1, false, false, none⟩
        ((Rule.token t : DdlRule String).read calls) :=
      prolongs_token (fun _ => false) fun first front _ => refused first front
    have inside := inside.beside c
    rw [read_convert, read_convert, Cursor.pos_extend]
    refine inside.handle (fun x next _ => ?_) (fun f _ => .same (.failed f))
      (fun f atEnd may p => .failed p atEnd may) fun _ _ _ _ may => by cases may
    cases f x with
    | ok y => exact .same (.matched y next)
    | error reason => exact .same (.failed _)

theorem prolongs_either {s : DdlRule α} (ha : Prolongs more m (r.read calls))
    (hb : Prolongs more m' (s.read calls)) (lasts : m.lasts = true) :
    Prolongs more (m.either m') ((Rule.either r s).read calls) where
  ahead := ahead_read calls _
  least read := by
    simp only [Margin.either]
    rcases either_matched_iff.1 read with matched | ⟨-, matched⟩
    · have := ha.least matched
      omega
    · have := hb.least matched
      omega
  beside c := by
    rw [read_either, read_either, Cursor.pos_extend]
    refine (ha.beside c).handle (fun x next _ => .same (.matched x next)) (fun f failed => ?_)
      (fun f atEnd may p => ?_)
      fun x next _ ended may p => .ended p ended (by rw [Margin.mayEnd_either, may, Bool.true_or])
    · have within := (ha.failure failed).2
      by_cases late : c.pos + 1 < f.pos
      · rw [if_pos late, if_pos late]
        exact .same (.failed f)
      · rw [if_neg late, if_neg late]
        refine (hb.beside c).handle (fun x next _ => .same (.matched x next))
          (fun g _ => .same (.failed _)) (fun g atEnd may p => .failed p ?_
            (Margin.mayFail_either (.inr may)))
          fun x next _ ended may p => .ended p ended
            (by rw [Margin.mayEnd_either, may, Bool.or_true])
        split
        · exact atEnd
        · rw [Failure.deeper_pos]
          omega
    · have := Margin.two_le_of_mayFail lasts may
      rw [if_pos (by omega)]
      exact .failed p atEnd (Margin.mayFail_of_two_le this)

theorem prolongs_optional (h : Prolongs more m (r.read calls)) (lasts : m.lastsOnce = true) :
    Prolongs more m.orNone ((Rule.optional r).read calls) where
  ahead := ahead_read calls _
  least read := (reaches_of_read read).le
  beside c := by
    rw [read_optional, read_optional, Cursor.pos_extend]
    refine (h.beside c).handle (fun x next _ => .same (.matched _ next)) (fun f _ => ?_)
      (fun f atEnd may p => ?_) fun x next _ ended may p =>
        .ended p ended (Margin.mayEnd_orNone (.inr may))
    · by_cases late : c.pos + 1 < f.pos
      · rw [if_pos late, if_pos late]
        exact .same (.failed f)
      · rw [if_neg late, if_neg late]
        exact .same (.matched none c)
    · rcases Margin.of_mayFail_of_lastsOnce lasts may with ⟨none, lacks⟩ | many
      · rw [if_neg (by omega)]
        exact .ended p (List.eq_nil_of_length_eq_zero none) (Margin.mayEnd_orNone (.inl lacks))
      · rw [if_pos (by omega)]
        exact .failed p atEnd (Margin.mayFail_of_two_le many)

theorem prolongs_many (h : Prolongs more m (r.read calls)) (lasts : m.lastsOnce = true) :
    Prolongs more m.orNone ((Rule.many r).read calls) :=
  .rounds repeats_many (.inl fun _ => rfl) (ahead_read calls _) h lasts

theorem ahead_followers (c : Cursor) : (followers calls r c).Ahead c :=
  (forward_read calls r).followersUpTo _ c

theorem prolongs_sepBy1 (ha : Prolongs more m (r.read calls)) (hb : Prolongs more m' (s.read calls))
    (lasts : (m'.both m).lastsOnce = true) :
    Prolongs more (m.both (m'.both m).orNone) ((r.sepBy1 s).read calls) := by
  have round : Prolongs more (m'.both m) ((s *> r).read calls) := by
    refine ((hb.both ha (·, ·)).map Prod.snd).congr fun c => ?_
    rw [← read_both]
    exact read_map Prod.snd
  have rest : Prolongs more (m'.both m).orNone (followers calls (s *> r)) :=
    .rounds repeats_followers (.inr fun _ => rfl) ahead_followers round lasts
  exact (ha.both rest (· :: ·)).congr fun _ => read_sepBy1

theorem prolongs_nested (h : Prolongs more m (r.read calls)) :
    Prolongs more m ((Rule.nested r).read calls) where
  ahead := ahead_read calls _
  least {c x next} read := by
    obtain ⟨-, inner, matched, rfl⟩ := nested_matched_iff.1 read
    have taken := h.least matched
    exact taken
  beside c := by
    rw [read_nested, read_nested, Cursor.depth_extend, Cursor.pos_extend]
    by_cases deep : 32 ≤ c.depth
    · rw [if_pos deep, if_pos deep]
      exact .same (.failed _)
    · rw [if_neg deep, if_neg deep]
      have inside := h.beside { c with depth := c.depth + 1 }
      exact .of_depth <| inside.handle (fun x next _ => .same (.matched x _))
        (fun f _ => .same (.failed f)) (fun f atEnd may p => .failed p atEnd may)
        fun x next _ ended may p => .ended p ended may

/-- With named rules that are as their margin tells, so is every steady rule. -/
theorem prolongs_of_calls (names : ∀ {α : Type} (name : Nonterminal α),
      Prolongs more .named ((Rule.call name).read calls))
    (refused : ∀ t, mark t = false → ∀ first ∈ more.head?, t.accept Keywords.mysql first = none)
    (steady : r.steady mark = true) : Prolongs more (r.margin mark) (r.read calls) := by
  induction r with
  | token t => exact prolongs_token mark fun first front plain => refused t plain first front
  | atEnd => exact prolongs_atEnd
  | call name => exact names name
  | map f r ih => exact ((ih steady).map f).congr fun _ => read_map f
  -- A steady conversion is one of a single token.
  | convert f r ih =>
    obtain ⟨single, lasts⟩ := Bool.and_eq_true_iff.1 steady
    cases r with
    | token t =>
      have plain : mark t = false := by simpa [Margin.lasts, margin] using lasts
      have margin : (Rule.convert f (.token t) : DdlRule _).margin mark = ⟨1, false, false, none⟩ := by
        simp [Rule.margin, plain]
      rw [margin]
      exact prolongs_convert f (refused t plain)
    | _ => cases single
  | both a b iha ihb =>
    obtain ⟨first, second⟩ := Bool.and_eq_true_iff.1 steady
    exact ((iha first).both (ihb second) (·, ·)).congr fun _ => read_both
  | either a b iha ihb =>
    simp only [Rule.steady, Bool.and_eq_true] at steady
    exact prolongs_either (iha steady.1.1) (ihb steady.1.2) steady.2
  | optional r ih =>
    obtain ⟨inside, lasts⟩ := Bool.and_eq_true_iff.1 steady
    exact prolongs_optional (ih inside) lasts
  | many r ih =>
    obtain ⟨inside, lasts⟩ := Bool.and_eq_true_iff.1 steady
    exact prolongs_many (ih inside) lasts
  | sepBy1 item separator ih ihs =>
    simp only [Rule.steady, Bool.and_eq_true] at steady
    exact prolongs_sepBy1 (ih steady.1.1) (ihs steady.1.2) steady.2
  | nested r ih => exact prolongs_nested (ih steady)

theorem prolongs_call (calls : Nat) (name : Nonterminal α)
    (refused : ∀ t, mark t = false → ∀ first ∈ more.head?, t.accept Keywords.mysql first = none)
    (names : ∀ {α : Type} (name : Nonterminal α),
      name.rule.steady mark = true ∧ (name.rule.margin mark).isNamed = true) :
    Prolongs more .named ((Rule.call name).read calls) := by
  induction calls generalizing α with
  | zero => exact ⟨fun _ => trivial, fun read => (by cases read), fun _ => .diverged _⟩
  | succ calls ih =>
    exact (prolongs_of_calls (r := name.rule) ih refused (names name).1).named (names name).2

end Rule

/-- The literal that a comma is read as. -/
def Terminal.isComma (t : Terminal) : Bool := t == .literal ","

def Token.IsComma (t : Token) : Prop := t.kind = .operator ∧ t.text = ","

theorem Nonterminal.steady_isComma {α : Type} (name : Nonterminal α) :
    name.rule.steady Terminal.isComma = true ∧
      (name.rule.margin Terminal.isComma).isNamed = true := by
  cases name <;> exact ⟨by decide, by decide⟩

namespace Rule

variable {calls : Nat} {r : DdlRule α} {c next : Cursor} {x : α} {comma : Token}
  {others : List Token}

theorem prolongs_comma (isComma : comma.IsComma) (steady : r.steady Terminal.isComma = true) :
    Prolongs (comma :: others) (r.margin Terminal.isComma) (r.read calls) := by
  have refused (t : Terminal) (other : t.isComma = false) :
      ∀ first ∈ (comma :: others).head?, t.accept Keywords.mysql first = none := by
    rintro first ⟨⟩
    cases accepted : t.accept Keywords.mysql comma with
    | none => rfl
    | some value =>
      rw [Terminal.eq_of_accept_operator isComma.1 accepted, isComma.2] at other
      cases other
  exact prolongs_of_calls (fun name => prolongs_call calls name refused Nonterminal.steady_isComma)
    refused steady

/-- What a rule takes that no comma continues, it takes in front of a comma. -/
theorem read_before_comma (isComma : comma.IsComma) (steady : r.steady Terminal.isComma = true)
    (shut : (r.margin Terminal.isComma).ends = none) (read : r.read calls c = .matched x next) :
    r.read calls (c.extend (comma :: others)) = .matched x (next.extend (comma :: others)) := by
  have prolongs : Prolongs (comma :: others) (r.margin Terminal.isComma) (r.read calls) :=
    prolongs_comma isComma steady
  have beside := prolongs.beside c
  rw [read] at beside
  generalize r.read calls (c.extend (comma :: others)) = o at beside ⊢
  cases beside with
  | same => rfl
  | ended _ _ may => simp [Margin.mayEnd, shut] at may

theorem FailsEarly.before_comma (early : r.FailsEarly calls c) (isComma : comma.IsComma)
    (steady : r.steady Terminal.isComma = true)
    (lasts : (r.margin Terminal.isComma).mayFail c.rest.length = true → 2 ≤ c.rest.length) :
    r.FailsEarly calls (c.extend (comma :: others)) := by
  obtain ⟨f, failed, near⟩ := early
  have prolongs : Prolongs (comma :: others) (r.margin Terminal.isComma) (r.read calls) :=
    prolongs_comma isComma steady
  have beside := prolongs.beside c
  rw [failed] at beside
  refine ⟨f, ?_, near⟩
  generalize r.read calls (c.extend (comma :: others)) = o at beside ⊢
  cases beside with
  | same => rfl
  | failed _ atEnd may =>
    have := lasts may
    omega

end Rule
end TableDdl
