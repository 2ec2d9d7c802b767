import TableDdl.Proofs.Grammar.Notes
import TableDdl.Statement

/-!
# Errors depend on the tokens before them

Two token lists agree up to the furthest failure of a parse of the first. Every token that the
engine asks about without taking it is noted as a failure, so it lies before that point, and the
parse of the second list is step by step that of the first. A conversion that is refused is noted
where its rule began; it must therefore be a conversion of a single token.
-/
namespace TableDdl

variable {N : Type → Type} {α β : Type}

namespace Rule

def isToken : Rule N α → Bool
  | .token _ => true
  | _ => false

/-- Every conversion is one of a single token, and nothing depends on where the text ends. -/
def isLocal {α : Type} : Rule N α → Bool
  | .token _ => true
  | .atEnd => false
  | .call _ => true
  | .map _ r => r.isLocal
  | .convert _ r => r.isToken
  | .both a b => a.isLocal && b.isLocal
  | .either a b => a.isLocal && b.isLocal
  | .optional r => r.isLocal
  | .many r => r.isLocal
  | .sepBy1 item separator => item.isLocal && separator.isLocal
  | .nested r => r.isLocal

theorem isLocal_of_isToken {r : Rule N α} (h : r.isToken = true) : r.isLocal = true := by
  cases r <;> first | rfl | simp [isToken] at h

end Rule

/-- The same place before tokens that agree up to index `m`. -/
def Cursor.Agrees (m : Nat) (c c' : Cursor) : Prop :=
  c'.pos = c.pos ∧ c'.depth = c.depth ∧ c'.rest.take (m - c.pos) = c.rest.take (m - c.pos)

namespace Cursor.Agrees

variable {m : Nat} {c c' : Cursor}

theorem deeper (h : c.Agrees m c') (depth : Nat) :
    ({ c with depth := depth } : Cursor).Agrees m { c' with depth := depth } :=
  ⟨h.1, rfl, h.2.2⟩

theorem nil (h : c.Agrees m c') (lt : c.pos < m) (none : c.rest = []) : c'.rest = [] := by
  have same := h.2.2
  obtain ⟨k, hk⟩ : ∃ k, m - c.pos = k + 1 := ⟨m - c.pos - 1, by omega⟩
  rw [none, hk, List.take_nil] at same
  cases rest : c'.rest with
  | nil => rfl
  | cons first tail => simp [rest] at same

theorem cons (h : c.Agrees m c') (lt : c.pos < m) {first : Token} {rest : List Token}
    (some : c.rest = first :: rest) : ∃ rest', c'.rest = first :: rest' ∧
      Cursor.Agrees m ⟨c.pos + 1, rest, c.depth⟩ ⟨c'.pos + 1, rest', c'.depth⟩ := by
  have same := h.2.2
  obtain ⟨k, hk⟩ : ∃ k, m - c.pos = k + 1 := ⟨m - c.pos - 1, by omega⟩
  rw [some, hk, List.take_succ_cons] at same
  cases tail : c'.rest with
  | nil => simp [tail] at same
  | cons first' rest' =>
    rw [tail, List.take_succ_cons, List.cons.injEq] at same
    obtain ⟨rfl, agree⟩ := same
    have length : m - (c.pos + 1) = k := by omega
    exact ⟨rest', rfl, by simp [h.1], h.2.1, by simpa [length] using agree⟩

end Cursor.Agrees

namespace Engine

/-- An answer that came of the tokens before index `m`. -/
def Within (m : Nat) (answer : Outcome α × Option Failure) : Prop :=
  looked answer.2 ≤ m ∧ match answer.1 with
    | .matched _ next => next.pos ≤ m
    | .failed _ => True
    | .diverged => False

/-- The same answer, on tokens that agree up to index `m`. -/
def Alike (m : Nat) (answer answer' : Outcome α × Option Failure) : Prop :=
  answer'.2 = answer.2 ∧ match answer.1 with
    | .matched x next => ∃ next', answer'.1 = .matched x next' ∧ next.Agrees m next'
    | .failed f => answer'.1 = .failed f
    | .diverged => answer'.1 = .diverged

variable {m : Nat} {notes : Option Failure}

theorem Alike.failed (f : Failure) :
    Alike m ((.failed f, notes) : Outcome α × Option Failure) (.failed f, notes) := ⟨rfl, rfl⟩

theorem Alike.matched (x : α) {next next' : Cursor} (h : next.Agrees m next') :
    Alike m (.matched x next, notes) (.matched x next', notes) := ⟨rfl, next', rfl, h⟩

/-- What comes after alike answers is alike, if what comes after the first came of tokens before
`m` only when the first did. -/
theorem Alike.follow {answer answer' : Outcome α × Option Failure}
    {k k' : α → Cursor → Option Failure → Outcome β × Option Failure}
    {r r' : Failure → Option Failure → Outcome β × Option Failure}
    (within : Within m (Engine.follow answer k r)) (alike : Within m answer → Alike m answer answer')
    (matched : ∀ x next mid, answer = (.matched x next, mid) → Within m (k x next mid) →
      (next.pos ≤ m ∧ looked mid ≤ m) ∧
        ∀ next', answer' = (.matched x next', mid) → next.Agrees m next' →
          Alike m (k x next mid) (k' x next' mid))
    (failed : ∀ f mid, answer = (.failed f, mid) → Within m (r f mid) →
      looked mid ≤ m ∧ Alike m (r f mid) (r' f mid)) :
    Alike m (Engine.follow answer k r) (Engine.follow answer' k' r') := by
  rcases answer with ⟨x | f | _, mid⟩
  · obtain ⟨⟨pos, seen⟩, later⟩ := matched _ _ _ rfl within
    obtain ⟨notes, next', same, agree⟩ := alike ⟨seen, pos⟩
    obtain rfl : answer' = (.matched _ next', mid) := Prod.ext same notes
    exact later next' rfl agree
  · obtain ⟨seen, later⟩ := failed _ _ rfl within
    obtain ⟨notes, same⟩ := alike ⟨seen, trivial⟩
    obtain rfl : answer' = (.failed f, mid) := Prod.ext same notes
    exact later
  · exact within.2.elim

/-- On tokens that agree as far as the attempt looks, it comes to the same. -/
def Local (a : Attempt (Option Failure) α) : Prop :=
  ∀ ⦃m c c' notes⦄, c.Agrees m c' → Within m (a c notes) → Alike m (a c notes) (a c' notes)

/-- Every match takes one token. -/
def Single (a : Attempt (Option Failure) α) : Prop :=
  ∀ ⦃c notes x next mid⦄, a c notes = (.matched x next, mid) → next.pos = c.pos + 1

variable {e : Engine (Option Failure)} {a : Attempt (Option Failure) α} {a' : Attempt Unit α}
  {b : Attempt (Option Failure) β} {b' : Attempt Unit β} {c c' : Cursor}

/-- Where an attempt looks no further than `m`, it starts before, and so do its notes. -/
theorem Noting.start_le (h : Noting a a') (within : Within m (a c notes)) :
    c.pos ≤ m ∧ looked notes ≤ m := by
  rcases run : a c notes with ⟨x | f | _, mid⟩
  · have := (h.reaches run).le
    have := h.looked_le run
    simp only [run, Within] at within
    omega
  · have := h.le_failure run
    have := h.failure_lt run
    have := h.looked_le run
    simp only [run, Within] at within
    omega
  · rw [run] at within
    exact within.2.elim

theorem Alike.map (f : α → β) {attempt attempt' : Attempt (Option Failure) α}
    (within : Within m (Engine.map f attempt c notes))
    (alike : Within m (attempt c notes) → Alike m (attempt c notes) (attempt' c' notes)) :
    Alike m (Engine.map f attempt c notes) (Engine.map f attempt' c' notes) := by
  rw [map_eq] at within ⊢
  rw [map_eq]
  exact .follow within alike
    (fun x next mid _ later => ⟨⟨later.2, later.1⟩, fun next' _ same => .matched _ same⟩)
    fun g mid _ later => ⟨later.1, .failed g⟩

/-- After a failure that is not final, both go on with the same value and no token taken. -/
theorem stop_alike (agree : c.Agrees m c') (f : Failure) (x : α)
    (within : Within m
      (if e.commits c.pos f then (.failed f, notes) else (.matched x c, notes))) :
    looked notes ≤ m ∧
      Alike m (if e.commits c.pos f then (.failed f, notes) else (.matched x c, notes))
        (if e.commits c'.pos f then (.failed f, notes) else (.matched x c', notes)) := by
  rw [agree.1]
  by_cases final : e.commits c.pos f
  · simp only [final, if_true] at within ⊢
    exact ⟨within.1, .failed f⟩
  · simp only [final, Bool.false_eq_true, if_false] at within ⊢
    exact ⟨within.1, .matched x agree⟩

theorem fail_alike (expected : Expected) (agree : c.Agrees m c') :
    Alike m (e.fail (α := α) expected c notes) (e.fail expected c' notes) := by
  simp only [fail, agree.1]
  exact .failed _

theorem looked_fail (note : e.note = Failure.furthest) (expected : Expected) :
    looked (e.fail (α := α) expected c notes).2 = max (looked notes) (c.pos + 1) := by
  simp [fail, note]

namespace Local

theorem token (note : e.note = Failure.furthest) (t : Terminal) : Local (e.token t) := by
  intro m c c' notes agree within
  simp only [Engine.token] at within ⊢
  cases rest : c.rest with
  | nil =>
    have lt : c.pos < m := by
      have := within.1
      simp only [rest, looked_fail note] at this
      omega
    simp only [agree.nil lt rest]
    exact fail_alike _ agree
  | cons first tail =>
    cases accepted : t.accept e.keywords first with
    | some value =>
      have lt : c.pos < m := by
        have := within.2
        simp only [rest, accepted] at this
        omega
      obtain ⟨tail', rest', later⟩ := agree.cons lt rest
      simp only [rest', accepted]
      exact .matched value later
    | none =>
      have lt : c.pos < m := by
        have := within.1
        simp only [rest, accepted, looked_fail note] at this
        omega
      obtain ⟨tail', rest', later⟩ := agree.cons lt rest
      simp only [rest', accepted]
      exact fail_alike _ agree

theorem map (f : α → β) (h : Local a) : Local (Engine.map f a) :=
  fun _ _ _ _ agree within => .map f within (h agree)

/-- A refused value is noted where its token stands, which is then the last one looked at. -/
theorem convert (note : e.note = Failure.furthest) (f : α → Except String β) (h : Local a)
    (single : Single a) : Local (e.convert f a) := by
  intro m c c' notes agree within
  rw [convert_eq] at within ⊢
  rw [convert_eq]
  refine .follow within (h agree) (fun x next mid run later => ?_)
    fun f mid _ later => ⟨later.1, .failed f⟩
  cases converted : f x with
  | ok y =>
    simp only [converted] at later ⊢
    exact ⟨⟨later.2, later.1⟩, fun next' _ same => .matched y same⟩
  | error reason =>
    have pos := single run
    have seen := later.1
    simp only [converted, looked_fail note] at seen ⊢
    exact ⟨by omega, fun next' _ same => fail_alike _ agree⟩

theorem both (ha : Local a) (hb : Local b) (nb : Noting b b') : Local (Engine.both a b) := by
  intro m c c' notes agree within
  rw [both_eq] at within ⊢
  rw [both_eq]
  exact .follow within (ha agree)
    (fun x mid notes _ later => ⟨(nb.map _).start_le later, fun mid' _ same => hb.map _ same later⟩)
    fun f mid _ later => ⟨later.1, .failed f⟩

theorem either {b : Attempt (Option Failure) α} {b' : Attempt Unit α} (ha : Local a)
    (na : Noting a a') (hb : Local b) (nb : Noting b b') : Local (e.either a b) := by
  intro m c c' notes agree within
  rw [either_eq] at within ⊢
  rw [either_eq]
  refine .follow within (ha agree)
    (fun x next mid _ later => ⟨⟨later.2, later.1⟩, fun next' _ same => .matched x same⟩)
    fun f mid run later => ?_
  rw [agree.1]
  by_cases final : e.commits c.pos f
  · simp only [final, if_true] at later ⊢
    exact ⟨later.1, .failed f⟩
  · simp only [final, Bool.false_eq_true, if_false] at later ⊢
    refine ⟨Nat.le_trans (nb.alternative_tracks c (na.held run)).looked_le later.1, ?_⟩
    exact .follow later (hb agree)
      (fun x next mid _ later => ⟨⟨later.2, later.1⟩, fun next' _ same => .matched x same⟩)
      fun g mid _ later => ⟨later.1, .failed _⟩

theorem optional (ha : Local a) : Local (e.optional a) := by
  intro m c c' notes agree within
  rw [optional_eq] at within ⊢
  rw [optional_eq]
  exact .follow within (ha agree)
    (fun x next mid _ later => ⟨⟨later.2, later.1⟩, fun next' _ same => .matched _ same⟩)
    fun f mid _ later => stop_alike agree f none later

/-- The bounds on rounds may differ: on the second list any will do that is above its length. -/
theorem manyUpTo (ha : Local a) (na : Noting a a') {bound bound' : Nat}
    (agree : c.Agrees m c') (enough : c'.rest.length < bound')
    (within : Within m (e.manyUpTo a bound c notes)) :
    Alike m (e.manyUpTo a bound c notes) (e.manyUpTo a bound' c' notes) := by
  induction bound generalizing bound' c c' notes with
  | zero => exact within.2.elim
  | succ bound ih =>
    obtain ⟨bound', rfl⟩ : ∃ k, bound' = k + 1 := ⟨bound' - 1, by omega⟩
    rw [manyUpTo_succ_eq] at within ⊢
    rw [manyUpTo_succ_eq]
    refine .follow within (ha agree) (fun x next mid run later => ?_) fun f mid run later => ?_
    · by_cases stays : next.pos = c.pos
      · simp only [stays, if_true] at later ⊢
        refine ⟨⟨later.2, later.1⟩, fun next' _ same => ?_⟩
        rw [if_pos (by rw [same.1, agree.1, stays])]
        exact .matched [] agree
      · simp only [stays, if_false] at later ⊢
        refine ⟨((na.manyUpTo bound).map _).start_le later, fun next' run' same => ?_⟩
        have moved : next'.pos ≠ c'.pos := by rwa [same.1, agree.1]
        have shorter := (na.reaches run').length_lt moved
        rw [if_neg moved]
        exact .map _ later (ih same (by omega))
    · exact stop_alike agree f [] later

theorem followersUpTo (ha : Local a) (na : Noting a a') {bound bound' : Nat}
    (agree : c.Agrees m c') (enough : c'.rest.length < bound')
    (within : Within m (e.followersUpTo a bound c notes)) :
    Alike m (e.followersUpTo a bound c notes) (e.followersUpTo a bound' c' notes) := by
  induction bound generalizing bound' c c' notes with
  | zero => exact within.2.elim
  | succ bound ih =>
    obtain ⟨bound', rfl⟩ : ∃ k, bound' = k + 1 := ⟨bound' - 1, by omega⟩
    rw [followersUpTo_succ_eq] at within ⊢
    rw [followersUpTo_succ_eq]
    refine .follow within (ha agree) (fun x next mid run later => ?_) fun f mid run later => ?_
    · by_cases stays : next.pos = c.pos
      · simp only [stays, if_true] at later
        exact later.2.elim
      · simp only [stays, if_false] at later ⊢
        refine ⟨((na.followersUpTo bound).map _).start_le later, fun next' run' same => ?_⟩
        have moved : next'.pos ≠ c'.pos := by rwa [same.1, agree.1]
        have shorter := (na.reaches run').length_lt moved
        rw [if_neg moved]
        exact .map _ later (ih same (by omega))
    · exact stop_alike agree f [] later

theorem sepBy1 (ha : Local a) (na : Noting a a') (hb : Local b) (nb : Noting b b') :
    Local (e.sepBy1 a b) := by
  intro m c c' notes agree within
  rw [sepBy1_eq] at within ⊢
  rw [sepBy1_eq]
  have round : Local (Engine.map Prod.snd (Engine.both b a)) := (hb.both ha na).map _
  have noting := (nb.both na).map Prod.snd
  refine .follow within (ha agree) (fun x next mid _ later => ?_)
    fun f mid _ later => ⟨later.1, .failed f⟩
  refine ⟨((noting.followersUpTo _).map _).start_le later, fun next' _ same => ?_⟩
  rw [map_eq] at later ⊢
  rw [map_eq]
  exact .follow later (round.followersUpTo noting same (Nat.lt_succ_self _))
    (fun xs last mid _ later => ⟨⟨later.2, later.1⟩, fun last' _ same => .matched _ same⟩)
    fun f mid _ later => ⟨later.1, .failed f⟩

theorem nested (ha : Local a) : Local (e.nested a) := by
  intro m c c' notes agree within
  rw [nested_eq] at within ⊢
  rw [nested_eq, agree.2.1]
  by_cases tooDeep : e.maxDepth ≤ c.depth
  · simp only [tooDeep, if_true]
    exact fail_alike _ agree
  · simp only [tooDeep, if_false] at within ⊢
    exact .follow within (ha (agree.deeper _))
      (fun x next mid _ later => ⟨⟨later.2, later.1⟩, fun next' _ same => .matched x (same.deeper _)⟩)
      fun f mid _ later => ⟨later.1, .failed f⟩

end Local

theorem local_relation {e : Engine (Option Failure)} (note : e.note = Failure.furthest)
    (grammar : ∀ {β : Type}, N β → Rule N β)
    (names : ∀ {β : Type} (name : N β), (grammar name).isLocal = true) :
    RunRelation e e.silent grammar fun r a a' => Noting a a' ∧ (r.isLocal = true → Local a) ∧
      (r.isToken = true → Single a) where
  token t := by
    refine ⟨(noting_relation note grammar).token t, fun _ => .token note t,
      fun _ c notes x next mid run => ?_⟩
    simp only [token, fail] at run
    split at run
    · simp at run
    · split at run
      · obtain ⟨⟨_, rfl⟩, _⟩ := by simpa using run
        rfl
      · simp at run
  atEnd := ⟨(noting_relation note grammar).atEnd, nofun, nofun⟩
  unanswered name := ⟨(noting_relation note grammar).unanswered name,
    fun _ _ _ _ _ _ within => within.2.elim, nofun⟩
  call h := ⟨h.1, fun _ => h.2.1 (names _), nofun⟩
  map f h := ⟨h.1.map f, fun own => (h.2.1 own).map f, nofun⟩
  convert {_ _ r _ _} f h := ⟨(noting_relation note grammar).convert (r := r) f h.1, fun own =>
    (h.2.1 (Rule.isLocal_of_isToken own)).convert note f (h.2.2 own), nofun⟩
  both ha hb := ⟨ha.1.both hb.1, fun own => by
    obtain ⟨first, second⟩ := Bool.and_eq_true_iff.1 own
    exact (ha.2.1 first).both (hb.2.1 second) hb.1, nofun⟩
  either ha hb := ⟨ha.1.either hb.1, fun own => by
    obtain ⟨first, second⟩ := Bool.and_eq_true_iff.1 own
    exact (ha.2.1 first).either ha.1 (hb.2.1 second) hb.1, nofun⟩
  optional {_ r _ _} h := ⟨(noting_relation note grammar).optional (r := r) h.1, fun own =>
    (h.2.1 own).optional, nofun⟩
  many {_ r _ _} h := ⟨(noting_relation note grammar).many (r := r) h.1, fun own _ _ _ _ agree within =>
    (h.2.1 own).manyUpTo h.1 agree (Nat.lt_succ_self _) within, nofun⟩
  sepBy1 ha hb := ⟨ha.1.sepBy1 hb.1, fun own => by
    obtain ⟨first, second⟩ := Bool.and_eq_true_iff.1 own
    exact (ha.2.1 first).sepBy1 ha.1 (hb.2.1 second) hb.1, nofun⟩
  nested {_ r _ _} h := ⟨(noting_relation note grammar).nested (r := r) h.1, fun own =>
    (h.2.1 own).nested, nofun⟩

end Engine

/-- What a text may be parsed as. -/
inductive EntryPoint : Type → Type
  | statement : EntryPoint Statement
  | createTable : EntryPoint CreateTable
  | alterTable : EntryPoint AlterTable
  | expression : EntryPoint Expression

def EntryPoint.rule {α : Type} : EntryPoint α → DdlRule α
  | .statement => Grammar.statement
  | .createTable => Grammar.createTable
  | .alterTable => Grammar.alterTable
  | .expression => Grammar.expression

theorem Nonterminal.isLocal_rule {α : Type} (name : Nonterminal α) : name.rule.isLocal = true := by
  cases name <;> rfl

theorem EntryPoint.isLocal_rule {α : Type} (entry : EntryPoint α) : entry.rule.isLocal = true := by
  cases entry <;> rfl

namespace Engine

variable {e : Engine (Option Failure)}

theorem fail_of_atEnd (note : e.note = Failure.furthest) {c : Cursor}
    {notes notes' : Option Failure} {f : Failure} (failed : e.atEnd c notes = (.failed f, notes')) :
    c.rest ≠ [] ∧ e.fail .endOfInput c notes = ((.failed f, notes') : Outcome Unit × _) ∧
      looked notes' = max (looked notes) (c.pos + 1) := by
  simp only [atEnd] at failed
  split at failed
  · simp at failed
  · rename_i more
    refine ⟨by simpa using more, failed, ?_⟩
    rw [← looked_fail (α := Unit) note .endOfInput, failed]

/-- A text that does not end where it should does not end there either when it goes on in
another way after the furthest failure. -/
theorem atEnd_alike (note : e.note = Failure.furthest) {m : Nat} {c c' : Cursor}
    {notes notes' : Option Failure} {f : Failure} (agree : c.Agrees m c')
    (failed : e.atEnd c notes = (.failed f, notes')) (within : looked notes' ≤ m) :
    e.atEnd c' notes = (.failed f, notes') := by
  obtain ⟨more, ended, seen⟩ := fail_of_atEnd note failed
  obtain ⟨first, tail, rest⟩ := List.exists_cons_of_ne_nil more
  obtain ⟨tail', rest', -⟩ := agree.cons (by omega) rest
  have same : Alike m (e.fail (α := Unit) .endOfInput c notes) (e.fail .endOfInput c' notes) :=
    fail_alike .endOfInput agree
  rw [ended] at same
  simp only [atEnd, rest', List.isEmpty_cons, Bool.false_eq_true, if_false]
  exact Prod.ext same.2 same.1

theorem statement_alike (note : e.note = Failure.furthest)
    {rule : DdlRule α} (own : rule.isLocal = true) (calls : Nat) {m : Nat} {c c' : Cursor}
    {f : Failure} {notes : Option Failure} (agree : c.Agrees m c')
    (failed : e.run Nonterminal.rule calls rule.statement c none = (.failed f, notes))
    (within : looked notes ≤ m) :
    e.run Nonterminal.rule calls rule.statement c' none = (.failed f, notes) := by
  let body : DdlRule α := rule <* (Grammar.literal ";").optional
  have unfolds : e.run Nonterminal.rule calls rule.statement =
      map Prod.fst (both (e.run Nonterminal.rule calls body) e.atEnd) := by
    rw [← run_atEnd e Nonterminal.rule calls, ← run_both, ← run_map]
    rfl
  have known := (local_relation note Nonterminal.rule Nonterminal.isLocal_rule).run calls body
  have bodyLocal : Local (e.run Nonterminal.rule calls body) :=
    known.2.1 (Bool.and_eq_true_iff.2 ⟨own, rfl⟩)
  rw [unfolds, map_eq, both_eq] at failed ⊢
  -- The failure is within the rule, or behind it, where the text should end.
  rcases first : e.run Nonterminal.rule calls body c none with ⟨x | g | _, mid⟩
  · rename_i next
    rw [first] at failed
    simp only [follow, map_eq] at failed
    rcases last : e.atEnd next mid with ⟨_ | g | _, final⟩
    · simp [last] at failed
    · obtain ⟨rfl, rfl⟩ : g = f ∧ final = notes := by simpa [last] using failed
      obtain ⟨-, -, seen⟩ := fail_of_atEnd note last
      have inside : Within m (.matched x next, mid) := by
        simp only [Within]
        omega
      obtain ⟨notes', next', same, agree'⟩ := first ▸ bodyLocal agree (first ▸ inside)
      rw [show e.run Nonterminal.rule calls body c' none = (.matched x next', mid) from
        Prod.ext same notes']
      simp only [follow, map_eq, atEnd_alike note agree' last within]
    · simp [last] at failed
  · rw [first] at failed
    obtain ⟨rfl, rfl⟩ : g = f ∧ mid = notes := by simpa [follow] using failed
    have same := bodyLocal agree (by rw [first]; exact ⟨within, trivial⟩)
    rw [first] at same
    rw [Prod.ext same.2 same.1]
    rfl
  · simp [first, follow] at failed

end Engine

/-- A parse that fails at a token fails in the same way on every token list that agrees with the
first up to that token: with the same expectations in the same order, and at the same token. -/
theorem EntryPoint.outcome_of_take_eq {α : Type} (keywords : Keywords) (entry : EntryPoint α)
    {tokens tokens' : List Token} {f furthest : Failure}
    (failed : (Engine.standard keywords).outcome entry.rule tokens none = (.failed f, some furthest))
    (inside : furthest.pos < tokens.length)
    (same : tokens'.take (furthest.pos + 1) = tokens.take (furthest.pos + 1)) :
    (Engine.standard keywords).outcome entry.rule tokens' none = (.failed f, some furthest) ∧
      tokens'[furthest.pos]? = tokens[furthest.pos]? ∧
      ∀ text text', Parser.parseTokens keywords entry.rule text' tokens' =
        Parser.parseTokens keywords entry.rule text tokens := by
  have agree : (Cursor.start tokens).Agrees (furthest.pos + 1) (.start tokens') :=
    ⟨rfl, rfl, by simpa [Cursor.start] using same⟩
  have failed' : (Engine.standard keywords).outcome entry.rule tokens' none =
      (.failed f, some furthest) :=
    Engine.statement_alike rfl entry.isLocal_rule _ agree failed (Nat.le_refl _)
  have found : tokens'[furthest.pos]? = tokens[furthest.pos]? := by
    rw [← List.getElem?_take_of_lt (Nat.lt_succ_self _), same,
      List.getElem?_take_of_lt (Nat.lt_succ_self _)]
  refine ⟨failed', found, fun text text' => ?_⟩
  simp only [Parser.parseTokens, failed, failed', Parser.unexpected, Parser.foundAt, found,
    Option.getD_some, List.getElem?_eq_getElem inside]

/-- Whatever follows `CREATE INDEX`, its second word is where a table definition goes wrong. -/
theorem EntryPoint.outcome_of_take_eq_createIndex :
    let word (text : String) : Token := ⟨.keyword, text, .start⟩
    (Engine.standard Keywords.mysql).outcome EntryPoint.createTable.rule
        [word "CREATE", word "INDEX", word "ON"] none =
      (.failed ⟨1, [.literal "TABLE"]⟩, some ⟨1, [.literal "TEMPORARY", .literal "TABLE"]⟩) := by
  intro word
  have failed : (Engine.standard Keywords.mysql).outcome EntryPoint.createTable.rule
      [word "CREATE", word "INDEX"] none =
    (.failed ⟨1, [.literal "TABLE"]⟩, some ⟨1, [.literal "TEMPORARY", .literal "TABLE"]⟩) := by
    decide +kernel
  have same : [word "CREATE", word "INDEX", word "ON"].take 2 =
      [word "CREATE", word "INDEX"].take 2 := rfl
  exact (EntryPoint.outcome_of_take_eq Keywords.mysql .createTable failed (by decide) same).1

end TableDdl
