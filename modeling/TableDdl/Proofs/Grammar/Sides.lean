import Mathlib.Data.List.Chain
import TableDdl.Proofs.Grammar.Reading

/-!
# Which tokens stand side by side

For a class of marked terminals, it can be read off a rule whether a token of that class may stand
first or last in what the rule takes. Where no part that may end in such a token is followed by
one that may begin with one, no two of them ever stand side by side in a text of the language.
-/
namespace TableDdl

variable {N : Type → Type} {σ α β : Type}

/-- Whether a marked token may stand first and last, and whether there may be no token. -/
structure Sides where
  opens : Bool
  closes : Bool
  empty : Bool

namespace Sides

/-- Tokens of one kind and then those of the other. -/
def both (s s' : Sides) : Sides where
  opens := s.opens || s.empty && s'.opens
  closes := s'.closes || s'.empty && s.closes
  empty := s.empty && s'.empty

def either (s s' : Sides) : Sides :=
  ⟨s.opens || s'.opens, s.closes || s'.closes, s.empty || s'.empty⟩

/-- The tokens, or none. -/
def orNone (s : Sides) : Sides := { s with empty := true }

/-- The marked tokens of the two do not meet. -/
def fits (s s' : Sides) : Bool := !(s.closes && s'.opens)

end Sides

namespace Rule

variable (mark : Terminal → Bool)

def sides {α : Type} : Rule N α → Sides
  | .token t => ⟨mark t, mark t, false⟩
  | .atEnd => ⟨false, false, true⟩
  | .call _ => ⟨false, false, false⟩
  | .map _ r => r.sides
  | .convert _ r => r.sides
  | .both a b => a.sides.both b.sides
  | .either a b => a.sides.either b.sides
  | .optional r => r.sides.orNone
  | .many r => r.sides.orNone
  | .sepBy1 item separator => item.sides.both (separator.sides.both item.sides).orNone
  | .nested r => r.sides

/-- No two parts that follow each other put marked tokens side by side. -/
def keepsApart {α : Type} : Rule N α → Bool
  | .token _ => true
  | .atEnd => true
  | .call _ => true
  | .map _ r => r.keepsApart
  | .convert _ r => r.keepsApart
  | .both a b => a.keepsApart && b.keepsApart && (a.sides mark).fits (b.sides mark)
  | .either a b => a.keepsApart && b.keepsApart
  | .optional r => r.keepsApart
  | .many r => r.keepsApart && (r.sides mark).fits (r.sides mark)
  | .sepBy1 item separator =>
    let round := (separator.sides mark).both (item.sides mark)
    item.keepsApart && separator.keepsApart && (separator.sides mark).fits (item.sides mark) &&
      round.fits round && (item.sides mark).fits round
  | .nested r => r.keepsApart

end Rule

/-- The tokens are apart, and first and last as the sides say. -/
structure Flanked (P : Token → Bool) (s : Sides) (ts : List Token) : Prop where
  apart : ts.IsChain fun t t' => ¬(P t = true ∧ P t' = true)
  first : s.opens = false → ∀ t ∈ ts.head?, P t = false
  last : s.closes = false → ∀ t ∈ ts.getLast?, P t = false
  some : s.empty = false → ts ≠ []

namespace Flanked

variable {P : Token → Bool} {s s' : Sides} {ts ts' : List Token}

theorem nil (s : Sides) : Flanked P s.orNone [] := ⟨.nil, by simp, by simp, nofun⟩

theorem orNone (h : Flanked P s ts) : Flanked P s.orNone ts := ⟨h.apart, h.first, h.last, nofun⟩

theorem left (h : Flanked P s ts) (s' : Sides) : Flanked P (s.either s') ts where
  apart := h.apart
  first off := h.first (Bool.or_eq_false_iff.1 off).1
  last off := h.last (Bool.or_eq_false_iff.1 off).1
  some off := h.some (Bool.or_eq_false_iff.1 off).1

theorem right (h : Flanked P s' ts) (s : Sides) : Flanked P (s.either s') ts where
  apart := h.apart
  first off := h.first (Bool.or_eq_false_iff.1 off).2
  last off := h.last (Bool.or_eq_false_iff.1 off).2
  some off := h.some (Bool.or_eq_false_iff.1 off).2

theorem append (h : Flanked P s ts) (h' : Flanked P s' ts') (fits : s.fits s' = true) :
    Flanked P (s.both s') (ts ++ ts') where
  apart := by
    refine List.isChain_append.2 ⟨h.apart, h'.apart, fun t ht t' ht' both => ?_⟩
    simp only [Sides.fits, Bool.not_eq_true', Bool.and_eq_false_iff] at fits
    rcases fits with closed | opened
    · simp [h.last closed t ht] at both
    · simp [h'.first opened t' ht'] at both
  first off := by
    obtain ⟨opened, other⟩ := Bool.or_eq_false_iff.1 off
    intro t ht
    rw [List.head?_append] at ht
    cases ts with
    | cons _ _ => exact h.first opened t ht
    | nil =>
      refine h'.first ((Bool.and_eq_false_iff.1 other).resolve_left fun off => h.some off rfl) t ht
  last off := by
    obtain ⟨closed, other⟩ := Bool.or_eq_false_iff.1 off
    intro t ht
    rw [List.getLast?_append] at ht
    cases last : ts'.getLast? with
    | some t' =>
      rw [last] at ht
      obtain rfl : t' = t := Option.some.inj ht
      exact h'.last closed t' last
    | none =>
      rw [last] at ht
      obtain rfl := List.getLast?_eq_none_iff.1 last
      exact h.last ((Bool.and_eq_false_iff.1 other).resolve_left fun off => h'.some off rfl) t ht
  some off := by
    rw [ne_eq, List.append_eq_nil_iff, not_and_or]
    exact (Bool.and_eq_false_iff.1 off).imp h.some h'.some

/-- One more round of a repetition. -/
theorem round (h : Flanked P s ts) (h' : Flanked P s.orNone ts') (fits : s.fits s = true) :
    Flanked P s.orNone (ts ++ ts') := by
  have all := h.append h' fits
  refine ⟨all.apart, fun off => all.first ?_, fun off => all.last ?_, nofun⟩
  · simp_all [Sides.both, Sides.orNone]
  · simp_all [Sides.both, Sides.orNone]

end Flanked

/-- What a match takes is flanked as the sides say. -/
def Outcome.Flanks (P : Token → Bool) (s : Sides) (c : Cursor) (o : Outcome α) : Prop :=
  ∀ x next, o = .matched x next → ∃ taken, c.rest = taken ++ next.rest ∧ Flanked P s taken

namespace Outcome.Flanks

variable {P : Token → Bool} {s s' : Sides} {c : Cursor} {o : Outcome α}

theorem matched {next : Cursor} {taken : List Token} (x : α) (whole : c.rest = taken ++ next.rest)
    (h : Flanked P s taken) : (Outcome.matched x next).Flanks P s c := by
  rintro _ _ ⟨⟩
  exact ⟨taken, whole, h⟩

theorem failed (f : Failure) : (Outcome.failed f : Outcome α).Flanks P s c := nofun

theorem diverged : (Outcome.diverged : Outcome α).Flanks P s c := nofun

/-- A match after some tokens. -/
theorem after {mid : Cursor} {taken : List Token} (ho : o.Flanks P s mid)
    (whole : c.rest = taken ++ mid.rest)
    (more : ∀ ts, Flanked P s ts → Flanked P s' (taken ++ ts)) : o.Flanks P s' c := by
  intro x next same
  obtain ⟨taken', whole', h'⟩ := ho x next same
  exact ⟨taken ++ taken', by rw [whole, whole', List.append_assoc], more taken' h'⟩

theorem map (f : α → β) (h : o.Flanks P s c) : (o.map f).Flanks P s c := by
  intro y next same
  obtain ⟨x, found, -⟩ := Outcome.map_eq_matched_iff.1 same
  exact h x next found

theorem handle {k : α → Cursor → Outcome β} {r : Failure → Outcome β} (h : o.Flanks P s c)
    (matched : ∀ x next taken, c.rest = taken ++ next.rest → Flanked P s taken →
      (k x next).Flanks P s' c)
    (failed : ∀ f, (r f).Flanks P s' c) : (o.handle k r).Flanks P s' c := by
  cases o with
  | matched x next =>
    obtain ⟨taken, whole, flanked⟩ := h x next rfl
    exact matched x next taken whole flanked
  | failed f => exact failed f
  | diverged => exact diverged

end Outcome.Flanks

namespace Engine

/-- The attempt takes only what is flanked as the sides say. -/
def Flanks (P : Token → Bool) (s : Sides) (a : Attempt Unit α) : Prop :=
  ∀ c, (a c ()).1.Flanks P s c

namespace Flanks

variable {P : Token → Bool} {s s' : Sides} {e : Engine Unit} {a : Attempt Unit α}
  {b : Attempt Unit β}

theorem map (f : α → β) (ha : Flanks P s a) : Flanks P s (Engine.map f a) := fun c => by
  rw [fst_map]
  exact (ha c).map f

theorem convert (f : α → Except String β) (ha : Flanks P s a) : Flanks P s (e.convert f a) :=
  fun c => by
  rw [fst_convert]
  refine (ha c).handle (fun x next taken whole flanked => ?_) .failed
  split
  · exact .matched _ whole flanked
  · exact .failed _

theorem both (fits : s.fits s' = true) (ha : Flanks P s a) (hb : Flanks P s' b) :
    Flanks P (s.both s') (Engine.both a b) := fun c => by
  rw [fst_both]
  refine (ha c).handle (fun x mid taken whole flanked => ?_) .failed
  exact ((hb mid).map _).after whole fun ts h => flanked.append h fits

theorem either {b : Attempt Unit α} (ha : Flanks P s a) (hb : Flanks P s' b) :
    Flanks P (s.either s') (e.either a b) := fun c => by
  rw [fst_either]
  refine (ha c).handle (fun x _ _ whole flanked => .matched x whole (flanked.left s')) fun f => ?_
  split
  · exact .failed f
  · exact (hb c).handle (fun x _ _ whole flanked => .matched x whole (flanked.right s)) fun g =>
      .failed _

theorem optional (ha : Flanks P s a) : Flanks P s.orNone (e.optional a) := fun c => by
  rw [fst_optional]
  refine (ha c).handle (fun x _ _ whole flanked => .matched _ whole flanked.orNone) fun f => ?_
  split
  · exact .failed f
  · exact .matched _ (List.nil_append _).symm (.nil s)

theorem manyUpTo (fits : s.fits s = true) (ha : Flanks P s a) (bound : Nat) :
    Flanks P s.orNone (e.manyUpTo a bound) := by
  induction bound with
  | zero => exact fun _ => .diverged
  | succ bound ih =>
    intro c
    rw [fst_manyUpTo_succ]
    refine (ha c).handle (fun x next taken whole flanked => ?_) fun f => ?_
    · split
      · exact .matched _ (List.nil_append _).symm (.nil s)
      · exact ((ih next).map _).after whole fun ts h => flanked.round h fits
    · split
      · exact .failed f
      · exact .matched _ (List.nil_append _).symm (.nil s)

theorem followersUpTo (fits : s.fits s = true) (ha : Flanks P s a) (bound : Nat) :
    Flanks P s.orNone (e.followersUpTo a bound) := by
  induction bound with
  | zero => exact fun _ => .diverged
  | succ bound ih =>
    intro c
    rw [fst_followersUpTo_succ]
    refine (ha c).handle (fun x next taken whole flanked => ?_) fun f => ?_
    · split
      · exact .diverged
      · exact ((ih next).map _).after whole fun ts h => flanked.round h fits
    · split
      · exact .failed f
      · exact .matched _ (List.nil_append _).symm (.nil s)

theorem sepBy1 (ha : Flanks P s a) (hb : Flanks P s' b) (fits : s'.fits s = true)
    (rounds : (s'.both s).fits (s'.both s) = true) (first : s.fits (s'.both s) = true) :
    Flanks P (s.both (s'.both s).orNone) (e.sepBy1 a b) := fun c => by
  rw [fst_sepBy1]
  refine (ha c).handle (fun x mid taken whole flanked => ?_) .failed
  exact ((((hb.both fits ha).map Prod.snd).followersUpTo rounds _ mid).map _).after whole fun ts h =>
    flanked.append h first

theorem nested (ha : Flanks P s a) : Flanks P s (e.nested a) := fun c => by
  rw [fst_nested]
  split
  · exact .failed _
  · exact (ha { c with depth := c.depth + 1 }).handle (fun x _ _ whole flanked =>
      .matched x whole flanked) .failed

end Flanks

theorem flanks_relation (e : Engine Unit) (grammar : ∀ {β : Type}, N β → Rule N β)
    {P : Token → Bool} {mark : Terminal → Bool}
    (marked : ∀ t terminal x, P t = true → terminal.accept e.keywords t = some x →
      mark terminal = true)
    (named : ∀ {β : Type} (name : N β),
      (grammar name).keepsApart mark = true ∧ (grammar name).sides mark = ⟨false, false, false⟩) :
    RunRelation e e grammar fun r a _ =>
      r.keepsApart mark = true → Flanks P (r.sides mark) a where
  token t _ c := by
    simp only [token, fail]
    split
    · exact .failed _
    · rename_i first rest tokens
      split
      · rename_i value accepted
        have off (unmarked : mark t = false) : P first = false := by
          cases known : P first with
          | false => rfl
          | true => rw [marked first t value known accepted] at unmarked; cases unmarked
        have alone : Flanked P ((Rule.token t : Rule N _).sides mark) [first] :=
          ⟨.singleton _, by simpa [Rule.sides] using off, by simpa [Rule.sides] using off, by simp⟩
        exact .matched value tokens alone
      · exact .failed _
  atEnd _ c := by
    simp only [atEnd, fail]
    split
    · exact .matched _ (List.nil_append _).symm (.nil ⟨false, false, true⟩)
    · exact .failed _
  unanswered _ _ _ := .diverged
  call {_ name _ _} ha _ := by
    have inside := ha (named name).1
    rw [(named name).2] at inside
    exact inside
  map f ha own := (ha own).map f
  convert f ha own := (ha own).convert f
  both ha hb own := by
    simp only [Rule.keepsApart, Bool.and_eq_true] at own
    exact (ha own.1.1).both own.2 (hb own.1.2)
  either ha hb own := by
    obtain ⟨first, second⟩ := Bool.and_eq_true_iff.1 own
    exact (ha first).either (hb second)
  optional ha own := (ha own).optional
  many ha own c := by
    obtain ⟨inner, rounds⟩ := Bool.and_eq_true_iff.1 own
    exact (ha inner).manyUpTo rounds _ c
  sepBy1 ha hb own := by
    simp only [Rule.keepsApart, Bool.and_eq_true] at own
    obtain ⟨⟨⟨⟨item, separator⟩, fits⟩, rounds⟩, first⟩ := own
    exact (ha item).sepBy1 (hb separator) fits rounds first
  nested ha own := (ha own).nested

end Engine

/-- What a rule of the language takes is flanked as its sides say. -/
theorem Rule.flanked_of_read {P : Token → Bool} {mark : Terminal → Bool}
    (marked : ∀ t terminal x, P t = true → terminal.accept Keywords.mysql t = some x →
      mark terminal = true)
    (named : ∀ {β : Type} (name : Nonterminal β),
      name.rule.keepsApart mark = true ∧ name.rule.sides mark = ⟨false, false, false⟩)
    {r : DdlRule α} (own : r.keepsApart mark = true) {calls : Nat} {c next : Cursor} {x : α}
    (read : r.read calls c = .matched x next) :
    ∃ taken, c.rest = taken ++ next.rest ∧ Flanked P (r.sides mark) taken :=
  (Engine.flanks_relation (Engine.standard Keywords.mysql).silent Nonterminal.rule marked
    named).run calls r own c x next read

end TableDdl
