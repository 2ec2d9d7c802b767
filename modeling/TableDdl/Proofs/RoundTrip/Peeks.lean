import TableDdl.Proofs.RoundTrip.Replay

/-!
# Rules for one token

A rule that takes exactly one token looks at nothing else. To replay it, it is enough to know
what it makes of a token and of the lexeme that the token is written as.
-/
namespace TableDdl

open Writes

variable {α β : Type}

/-- The rule takes one token, and the function tells which and with what value. -/
structure Rule.Peeks (calls : Nat) (r : DdlRule α) (peek : Token → Option α) : Prop where
  matched_iff : ∀ {c next : Cursor} {x : α}, r.read calls c = .matched x next ↔
    ∃ t rest, c.rest = t :: rest ∧ peek t = some x ∧ next = ⟨c.pos + 1, rest, c.depth⟩
  refused : ∀ {c : Cursor}, (∀ t ∈ c.rest.head?, peek t = none) → r.FailsHere calls c

namespace Rule.Peeks

variable {calls : Nat} {r : DdlRule α} {peek peek' : Token → Option α}

theorem token (t : Terminal) : (Rule.token t).Peeks calls (t.accept Keywords.mysql) where
  matched_iff := token_matched_iff
  refused none := by
    apply Rule.failsHere_token
    intro t' ht' first hfirst
    obtain rfl : t' = t := by simpa using ht'
    exact none first hfirst

theorem map (φ : α → β) (h : r.Peeks calls peek) :
    (Rule.map φ r).Peeks calls fun t => (peek t).map φ where
  matched_iff {c next y} := by
    rw [Rule.map_matched_iff]
    simp only [h.matched_iff, Option.map_eq_some_iff]
    constructor
    · rintro ⟨x, ⟨t, rest, whole, accepted, rfl⟩, rfl⟩
      exact ⟨t, rest, whole, ⟨x, accepted, rfl⟩, rfl⟩
    · rintro ⟨t, rest, whole, ⟨x, accepted, rfl⟩, rfl⟩
      exact ⟨x, ⟨t, rest, whole, accepted, rfl⟩, rfl⟩
  refused none := (h.refused fun t ht => by simpa using none t ht).map φ

theorem convert (φ : α → Except String β) (h : r.Peeks calls peek) :
    (Rule.convert φ r).Peeks calls fun t => (peek t).bind fun x => (φ x).toOption where
  matched_iff {c next y} := by
    rw [Rule.convert_matched_iff]
    simp only [h.matched_iff, Option.bind_eq_some_iff]
    constructor
    · rintro ⟨x, ⟨t, rest, whole, accepted, rfl⟩, converted⟩
      exact ⟨t, rest, whole, ⟨x, accepted, by rw [converted]; rfl⟩, rfl⟩
    · rintro ⟨t, rest, whole, ⟨x, accepted, converted⟩, rfl⟩
      refine ⟨x, ⟨t, rest, whole, accepted, rfl⟩, ?_⟩
      cases value : φ x with
      | ok z => simpa [value, Except.toOption] using converted
      | error e => simp [value, Except.toOption] at converted
  refused {c} none := by
    cases tokens : c.rest with
    | nil =>
      exact (h.refused fun t ht => by simp [tokens] at ht).convert φ
    | cons t rest =>
      have refused := none t (by simp [tokens])
      cases accepted : peek t with
      | none =>
        apply (h.refused _).convert φ
        intro t' ht'
        obtain rfl : t = t' := by simpa [tokens] using ht'
        exact accepted
      | some x =>
        have matched := h.matched_iff.2 ⟨t, rest, tokens, accepted, rfl⟩
        simp only [accepted, Option.bind_some] at refused
        cases value : φ x with
        | ok z => simp [value, Except.toOption] at refused
        | error e =>
          exact ⟨_, by rw [Rule.read_convert, matched, Outcome.handle_matched, value], rfl⟩

theorem either {s : DdlRule α} (h : r.Peeks calls peek) (h' : s.Peeks calls peek') :
    (Rule.either r s).Peeks calls fun t => peek t <|> peek' t where
  matched_iff {c next x} := by
    rw [Rule.either_matched_iff, h.matched_iff, h'.matched_iff]
    constructor
    · rintro (⟨t, rest, whole, accepted, rfl⟩ | ⟨early, t, rest, whole, accepted, rfl⟩)
      · exact ⟨t, rest, whole, by simp [accepted], rfl⟩
      · refine ⟨t, rest, whole, ?_, rfl⟩
        cases first : peek t with
        | none => simpa using accepted
        | some y =>
          obtain ⟨e, failed, -⟩ := early
          rw [h.matched_iff.2 ⟨t, rest, whole, first, rfl⟩] at failed
          cases failed
    · rintro ⟨t, rest, whole, accepted, rfl⟩
      cases first : peek t with
      | some y =>
        obtain rfl : y = x := by simpa [first] using accepted
        exact .inl ⟨t, rest, whole, first, rfl⟩
      | none =>
        have early := (h.refused (c := c) fun t' ht' => by
          obtain rfl : t = t' := by simpa [whole] using ht'
          exact first).early
        exact .inr ⟨early, t, rest, whole, by simpa [first] using accepted, rfl⟩
  refused {c} none := by
    have both : ∀ t ∈ c.rest.head?, peek t = .none ∧ peek' t = .none := by
      intro t ht
      simpa using none t ht
    exact (h.refused fun t ht => (both t ht).1).either (h'.refused fun t ht => (both t ht).2)

end Rule.Peeks

namespace Replay

variable {calls : Nat} {r : DdlRule α} {peek : Token → Option α} {firm : Bool}
  {W : α → Written → Prop}

/-- What a rule makes of tokens and lexemes. -/
structure Steady (peek : Token → Option α) (firm : Bool) (W : α → Written → Prop) : Prop where
  ends : ∀ {t : Token}, t.kind = .operator → t.text = ")" ∨ t.text = ";" → peek t = none
  refuses : ∀ {t : Token} {l : Lexeme}, t.Sound Keywords.mysql → Renders t l → peek t = none →
    peek l.token = none
  accepts : ∀ {t : Token} {l : Lexeme} {x : α}, firm = true → t.Sound Keywords.mysql →
    Renders t l → peek t = some x → ∃ y, peek l.token = some y
  written : ∀ {t : Token} {x : α}, t.Sound Keywords.mysql → peek t = some x →
    ∃ l u, W x u ∧ u.looseNames = [] ∧ u.lexemes = [l] ∧ Renders t l ∧
      (u.Good → peek l.token = some x)

theorem peek_of_inside (steady : Steady peek firm W) {rest rest' : List Token}
    (inside : Inside rest rest') (none : ∀ t ∈ rest.head?, peek t = none) :
    ∀ t ∈ rest'.head?, peek t = .none := by
  cases inside with
  | closed _ after =>
    obtain ⟨t, ts, rfl, kind, text⟩ := after
    intro t' ht'
    obtain rfl : t = t' := by simpa using ht'
    exact steady.ends kind (.inl text)
  | ended _ after =>
    intro t ht
    obtain ⟨kind, text⟩ := after t ht
    exact steady.ends kind (.inr text)
  | @cons t l _ _ sound renders _ =>
    intro t' ht'
    obtain rfl : l.token = t' := by simpa using ht'
    exact steady.refuses sound renders (none t (by simp))

theorem of_inside (steady : Steady peek firm W) {t : Token} {rest rest' : List Token} {x : α}
    (inside : Inside (t :: rest) rest') (accepted : peek t = some x) :
    ∃ l ts, rest' = l.token :: ts ∧ t.Sound Keywords.mysql ∧ Renders t l ∧ Inside rest ts := by
  cases inside with
  | closed before _ =>
    obtain ⟨_, _, same, kind, text⟩ := before
    obtain ⟨rfl, rfl⟩ := List.cons.inj same
    rw [steady.ends kind (.inl text)] at accepted
    cases accepted
  | ended before _ =>
    obtain ⟨kind, text⟩ := before t (by simp)
    rw [steady.ends kind (.inr text)] at accepted
    cases accepted
  | cons sound renders later => exact ⟨_, _, rfl, sound, renders, later⟩

theorem of_peeks (peeks : r.Peeks calls peek) (steady : Steady peek firm W) :
    Replay calls r firm W where
  fails {k c c'} _ beside fails := by
    have none : ∀ t ∈ c.rest.head?, peek t = none := by
      intro t ht
      cases accepted : peek t with
      | none => rfl
      | some x =>
        obtain ⟨rest, whole⟩ : ∃ rest, c.rest = t :: rest := by
          cases tokens : c.rest with
          | nil => simp [tokens] at ht
          | cons t ts => exact ⟨ts, by simp_all⟩
        obtain ⟨e, failed, -⟩ := fails
        rw [peeks.matched_iff.2 ⟨t, rest, whole, accepted, rfl⟩] at failed
        cases failed
    obtain ⟨e, failed, here⟩ := peeks.refused (peek_of_inside steady beside.rest none)
    exact ⟨e, failed, by omega⟩
  short {c c' next x} beside read _ := by
    obtain ⟨t, rest, whole, accepted, rfl⟩ := peeks.matched_iff.1 read
    have inside := beside.rest
    rw [whole] at inside
    obtain ⟨l, ts, whole', sound, renders, later⟩ := of_inside steady inside accepted
    cases again : peek l.token with
    | some y =>
      refine .inl ⟨y, _, peeks.matched_iff.2 ⟨_, ts, whole', again, rfl⟩, ?_, later, beside.depth⟩
      simp only
      omega
    -- Only where the rule is not firm may the written form of a token be refused.
    | none =>
      have loose : firm = false := by
        cases strong : firm with
        | false => rfl
        | true =>
          obtain ⟨y, again'⟩ := steady.accepts strong sound renders accepted
          rw [again] at again'
          cases again'
      refine .inr ⟨loose, rfl, (peeks.refused fun t' ht' => ?_).early⟩
      obtain rfl : l.token = t' := by simpa [whole'] using ht'
      exact again
  written {c next x} sound read := by
    obtain ⟨t, rest, whole, accepted, rfl⟩ := peeks.matched_iff.1 read
    obtain ⟨l, u, writes, loose, text, renders, again⟩ :=
      steady.written (sound t (by simp [whole])) accepted
    refine ⟨[t], u, writes, loose, whole, by rw [text]; exact .cons renders .nil, ?_⟩
    intro good pos rest _
    rw [Rule.Takes, text]
    exact peeks.matched_iff.2 ⟨_, rest, rfl, again good, rfl⟩

end Replay
end TableDdl
