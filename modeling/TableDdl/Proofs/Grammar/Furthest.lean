import Mathlib.Data.List.Nodup
import TableDdl.Proofs.Grammar.Halting
import TableDdl.Proofs.Grammar.Locality

/-!
# What a syntax error tells

The failures of a run, those included that another alternative made up for, as a list in the order
in which they come about. Main statement: what the parser notes is the furthest place in this list
with all that was expected there, a failed run has its own failure in it, and so every syntax error
tells the noted failure and something that was expected.
-/
namespace TableDdl

variable {N : Type → Type} {α : Type} {log : List Failure} {pos : Nat} {x : Expected}

/-- What was expected at the place, in the order of the failures, each once. -/
def expectedAt (log : List Failure) (pos : Nat) : List Expected :=
  ((log.filter (·.pos = pos)).flatMap Failure.expected).eraseDups

/-- None where nothing failed; else the greatest place in the list, with what was expected there. -/
def IsFurthest (log : List Failure) : Option Failure → Prop
  | none => log = []
  | some g => (∃ f ∈ log, f.pos = g.pos) ∧ (∀ f ∈ log, f.pos ≤ g.pos) ∧
    g.expected = expectedAt log g.pos

theorem expectedAt_eq_nil (below : ∀ f ∈ log, f.pos < pos) : expectedAt log pos = [] := by
  have none : log.filter (·.pos = pos) = [] := by
    rw [List.filter_eq_nil_iff]
    intro f hf same
    exact absurd (of_decide_eq_true same) (Nat.ne_of_lt (below f hf))
  rw [expectedAt, none]
  rfl

theorem expectedAt_concat (log : List Failure) (pos : Nat) (x : Expected) :
    expectedAt (log ++ [⟨pos, [x]⟩]) pos = appendNew (expectedAt log pos) [x] := by
  have more : (log ++ [Failure.mk pos [x]]).filter (·.pos = pos) =
      log.filter (·.pos = pos) ++ [⟨pos, [x]⟩] := by
    simp
  have one : appendNew (expectedAt log pos) [x] =
      if x ∈ expectedAt log pos then expectedAt log pos else expectedAt log pos ++ [x] := rfl
  rw [one, expectedAt, more, List.flatMap_append, List.eraseDups_append, expectedAt]
  simp only [List.mem_eraseDups]
  by_cases seen : x ∈ (log.filter (·.pos = pos)).flatMap Failure.expected
  · simp [List.removeAll, seen]
  · simp [List.removeAll, seen, List.eraseDups_cons]

theorem expectedAt_concat_of_ne {p : Nat} (other : p ≠ pos) :
    expectedAt (log ++ [⟨p, [x]⟩]) pos = expectedAt log pos := by
  simp [expectedAt, other]

/-- Where one more failure is noted, the notes stay the furthest of all. -/
theorem IsFurthest.concat {notes : Option Failure} (h : IsFurthest log notes) (pos : Nat)
    (x : Expected) :
    IsFurthest (log ++ [⟨pos, [x]⟩]) (Failure.furthest notes ⟨pos, [x]⟩) := by
  have mem : (⟨pos, [x]⟩ : Failure) ∈ log ++ [⟨pos, [x]⟩] := List.mem_concat_self
  cases notes with
  | none =>
    obtain rfl : log = [] := h
    refine ⟨⟨_, mem, rfl⟩, by simp, ?_⟩
    rw [expectedAt_concat]
    rfl
  | some g =>
    obtain ⟨⟨f, hf, at'⟩, greatest, all⟩ := h
    have bound {n : Nat} (le : g.pos ≤ n) (le' : pos ≤ n) :
        ∀ f ∈ log ++ [⟨pos, [x]⟩], f.pos ≤ n := by
      intro f hf
      rcases List.mem_append.1 hf with hf | hf
      · exact Nat.le_trans (greatest f hf) le
      · obtain rfl := List.mem_singleton.1 hf
        exact le'
    -- The new failure is further than the noted one, or nearer, or at the same place.
    rcases Failure.deeper_cases g ⟨pos, [x]⟩ with ⟨lt, same⟩ | ⟨lt, same⟩ | ⟨tie, same⟩
    · rw [Failure.furthest, same]
      refine ⟨⟨_, mem, rfl⟩, bound (Nat.le_of_lt lt) (Nat.le_refl _), ?_⟩
      rw [expectedAt_concat, expectedAt_eq_nil fun f hf => Nat.lt_of_le_of_lt (greatest f hf) lt]
      rfl
    · rw [Failure.furthest, same]
      refine ⟨⟨f, List.mem_append_left _ hf, at'⟩, bound (Nat.le_refl _) (Nat.le_of_lt lt), ?_⟩
      rw [expectedAt_concat_of_ne (Nat.ne_of_lt lt)]
      exact all
    · rw [Failure.furthest, same]
      refine ⟨⟨f, List.mem_append_left _ hf, at'⟩, bound (Nat.le_refl _) (Nat.le_of_eq tie.symm), ?_⟩
      obtain rfl : g.pos = pos := tie
      rw [all, expectedAt_concat]

namespace Engine

/-- The engine that lists the failures in the order in which they come about. -/
def listing {σ : Type} (e : Engine σ) : Engine (List Failure) := e.withNotes fun log f => log ++ [f]

/-- The failures of a run and the parser's notes of it: each failure expects one thing. -/
def Summarizes (notes : Option Failure) (log : List Failure) : Prop :=
  IsFurthest log notes ∧ ∀ f ∈ log, ∃ x, f.expected = [x]

theorem Summarizes.concat {notes : Option Failure} (h : Summarizes notes log) (pos : Nat)
    (x : Expected) : Summarizes (Failure.furthest notes ⟨pos, [x]⟩) (log ++ [⟨pos, [x]⟩]) := by
  refine ⟨h.1.concat pos x, fun f hf => ?_⟩
  rcases List.mem_append.1 hf with hf | hf
  · exact h.2 f hf
  · obtain rfl := List.mem_singleton.1 hf
    exact ⟨x, rfl⟩

theorem summarizes_run (keywords : Keywords) (grammar : ∀ {β : Type}, N β → Rule N β)
    (calls : Nat) (r : Rule N α) (c : Cursor) :
    Beside Summarizes ((standard keywords).run grammar calls r c none)
      ((standard keywords).listing.run grammar calls r c []) := by
  have related : RunRelation (standard keywords) (standard keywords).listing grammar
      fun _ a a' => Abreast Summarizes a a' :=
    abreast_relation (fun _ _ pos x h => h.concat pos x) grammar
  exact related.run calls r c none [] ⟨rfl, nofun⟩

/-- The rules of the language come to an end on every token list. -/
theorem outcome_ne_diverged {β : Type} (keywords : Keywords) (entry : EntryPoint β)
    (tokens : List Token) (notes : Option Failure) :
    ((standard keywords).outcome entry.rule tokens notes).1 ≠ .diverged := by
  rw [outcome, run_fst]
  have limits : entry.rule.statement.advances = true ∧ entry.rule.statement.rank ≤ 8 := by
    cases entry <;> decide +kernel
  refine endsAt_run (standard keywords).silent limits.1 ?_ rfl
  have depth : Nonterminal.callDepth (standard keywords).maxDepth =
      4 * ((standard keywords).silent.maxDepth - (Cursor.start tokens).depth) + 8 := rfl
  have := limits.2
  omega

end Engine

theorem nodup_appendNew {β : Type} [DecidableEq β] {seen : List β} (nodup : seen.Nodup)
    (items : List β) : (appendNew seen items).Nodup := by
  induction items generalizing seen with
  | nil => exact nodup
  | cons y items ih =>
    have step : appendNew seen (y :: items) =
      appendNew (if y ∈ seen then seen else seen ++ [y]) items := rfl
    rw [step]
    refine ih ?_
    split
    · exact nodup
    · rename_i new
      rw [← List.concat_eq_append]
      exact nodup.concat new

/-- Something was expected where the furthest failure is. -/
theorem IsFurthest.expected_ne_nil {g : Failure} (h : IsFurthest log (some g))
    (raised : ∀ f ∈ log, ∃ x, f.expected = [x]) : g.expected ≠ [] := by
  obtain ⟨⟨f, hf, at'⟩, -, all⟩ := h
  obtain ⟨x, one⟩ := raised f hf
  refine List.ne_nil_of_mem (a := x) ?_
  rw [all, expectedAt, List.mem_eraseDups, List.mem_flatMap]
  exact ⟨f, List.mem_filter.2 ⟨hf, by simpa using at'⟩, by simp [one]⟩

/-- The notes of a run are none where nothing failed, and else the greatest place where something
did, with all that was expected there in the order of the failures. A run that fails has its
failure in them, so a syntax error tells the notes and nothing else, and what it lists is
something, each once. -/
theorem furthest_of_run (keywords : Keywords) :
    (∀ {N : Type → Type} (grammar : ∀ {β : Type}, N β → Rule N β) (calls : Nat) {α : Type}
      (r : Rule N α) (c : Cursor),
      let parsed := (Engine.standard keywords).run grammar calls r c none
      let listed := (Engine.standard keywords).listing.run grammar calls r c []
      listed.1 = parsed.1 ∧ IsFurthest listed.2 parsed.2 ∧
        ∀ f, parsed.1 = .failed f → ∃ g, parsed.2 = some g ∧
          f.pos ≤ g.pos ∧ (f.pos = g.pos → f.expected ⊆ g.expected)) ∧
    ∀ {α : Type} (entry : EntryPoint α) (text : String) (tokens : List Token) (e : Error),
      Parser.parseTokens keywords entry.rule text tokens = .error e →
      ∃ f g place expected found,
        (Engine.standard keywords).outcome entry.rule tokens none = (.failed f, some g) ∧
        e = Parser.unexpected text tokens g ∧ e = .unexpected place expected found ∧
        expected ≠ [] ∧ expected.Nodup := by
  have holds {N : Type → Type} (grammar : ∀ {β : Type}, N β → Rule N β) (calls : Nat) {α : Type}
      (r : Rule N α) (c : Cursor) {f : Failure}
      (failed : ((Engine.standard keywords).run grammar calls r c none).1 = .failed f) :
      ∃ g, ((Engine.standard keywords).run grammar calls r c none).2 = some g ∧ g.Covers f :=
    (((Engine.noting_relation rfl grammar).run calls r).tracks c none).2 f failed
  constructor
  · intro N grammar calls α r c parsed listed
    obtain ⟨same, furthest, -⟩ := Engine.summarizes_run keywords grammar calls r c
    exact ⟨same.symm, furthest, fun f failed => holds grammar calls r c failed⟩
  -- A statement is rejected only if its run fails, and a run that fails has noted something.
  · intro α entry text tokens e error
    have ends := Engine.outcome_ne_diverged keywords entry tokens none
    have summary := Engine.summarizes_run keywords Nonterminal.rule
      (Nonterminal.callDepth (Engine.standard keywords).maxDepth) entry.rule.statement
      (.start tokens)
    rcases run : (Engine.standard keywords).outcome entry.rule tokens none with ⟨x | f | _, notes⟩
    · simp [Parser.parseTokens, run] at error
    · obtain ⟨g, noted, -⟩ := holds Nonterminal.rule _ entry.rule.statement (.start tokens)
        (congrArg Prod.fst run)
      obtain rfl : notes = some g := (congrArg Prod.snd run).symm.trans noted
      have told : Parser.unexpected text tokens g = e := by
        simpa [Parser.parseTokens, run] using error
      have some := (noted ▸ summary.2.1).expected_ne_nil summary.2.2
      obtain ⟨x, mem⟩ := List.exists_mem_of_ne_nil _ some
      refine ⟨f, g, _, _, _, rfl, told.symm, told.symm, ?_, nodup_appendNew List.nodup_nil _⟩
      exact List.ne_nil_of_mem (mem_appendNew.2 (.inr (List.mem_map_of_mem mem)))
    · rw [run] at ends
      exact absurd rfl ends

/-- The length that is refused is further than the token at which the text is given up. -/
theorem furthest_of_run_length :
    let word (text : String) : Token := ⟨.keyword, text, .start⟩
    let mark (text : String) : Token := ⟨.operator, text, .start⟩
    let tokens : List Token := [word "CREATE", word "TABLE", ⟨.identifier, "t", .start⟩, mark "(",
      ⟨.identifier, "a", .start⟩, word "CHAR", mark "(", ⟨.number, "-1", ⟨23, 1, 24⟩⟩, mark ")"]
    let e := Error.unexpected ⟨23, 1, 24⟩ ["unsigned integer (got -1)"] "'-1'"
    Parser.parseTokens .mysql EntryPoint.createTable.rule "" tokens = .error e ∧
    ∃ f g place expected found,
      (Engine.standard .mysql).outcome EntryPoint.createTable.rule tokens none =
        (.failed f, some g) ∧
      e = Parser.unexpected "" tokens g ∧ e = .unexpected place expected found ∧
      expected ≠ [] ∧ expected.Nodup := by
  intro word mark tokens e
  have failed : (Engine.standard .mysql).outcome EntryPoint.createTable.rule tokens none =
      (.failed ⟨6, [.literal ")"]⟩, some ⟨7, [.invalid "unsigned integer (got -1)"]⟩) := by
    decide +kernel
  have error : Parser.parseTokens .mysql EntryPoint.createTable.rule "" tokens = .error e := by
    rw [Parser.parseTokens, failed]
    decide
  exact ⟨error, (furthest_of_run .mysql).2 .createTable "" tokens e error⟩

end TableDdl
