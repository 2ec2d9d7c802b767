import TableDdl.Proofs.RoundTrip.PartitionOptions

/-!
# Reading alterations back

The parts of an alteration stand in a list with commas. A part that ends in names takes the next
part's first word for one more name, unless the word is reserved.
-/
namespace TableDdl

open Writes

variable {calls depth : Nat}

namespace Alteration

/-- A list of names at the end is not empty. -/
def HasNames : Alteration → Prop
  | .option _ => True
  | .partition o => o.HasNames

/-- Whether the part starts with a reserved word, after which no list of names goes on. -/
def startsReserved : Alteration → Bool
  | .option _ => false
  | .partition o => Keywords.mysql.isReserved o.firstWord

/-- The tokens end, or a comma follows; after names there is no further name. -/
def Follows (a : Alteration) (rest : List Token) : Prop :=
  rest = [] ∨ ∃ rest', rest = (Lexeme.symbol ",").token :: rest' ∧
    (a.endsInNames = true → Avoids [.identifier] rest')

end Alteration

namespace Codec

/-- A part of either kind. -/
def alteration (ends : Bool) : On Alteration.endsInNames ends Grammar.alteration
    (fun a t => a.HasNames ∧ t = a.written) where
  edges := alterOption.edges.orElse (alterPartitionOption ends).edges
  coherent := true
  written _ scanned read same := by
    rcases Rule.either_matched_iff.1 read with matched | ⟨-, matched⟩
    · obtain ⟨o, changed, rfl⟩ := Rule.map_matched_iff.1 matched
      obtain ⟨_, rfl, back⟩ := alterOption.written coherent_alterOption scanned changed
      exact ⟨_, ⟨trivial, rfl⟩,
        (back.map Alteration.option).left.within (within_orElse_left _ _)⟩
    · obtain ⟨o, changed, rfl⟩ := Rule.map_matched_iff.1 matched
      obtain ⟨_, ⟨some, rfl⟩, back⟩ :=
        (alterPartitionOption ends).written (coherent_alterPartitionOption ends) scanned changed same
      have right := (back.map Alteration.partition).right fun good pos rest =>
        AlterPartitionOption.failsEarly_alterOption (back.sound.writable good)
      exact ⟨_, ⟨some, rfl⟩, right.within (within_orElse_right _ _)⟩

end Codec

namespace Alteration

variable {a b : Alteration} {rest : List Token}

theorem endsNames_of_follows (follows : a.Follows rest) (ends : a.endsInNames = true) :
    AlterPartitionOption.EndsNames calls depth rest := by
  intro pos
  rcases follows with rfl | ⟨rest, rfl, avoids⟩
  · exact (((Rule.failsHere_token (Avoids.nil _)).both Grammar.identifier).map Prod.snd).early
  · have named : Grammar.identifier.FailsHere calls ⟨pos + 1, rest, depth⟩ :=
      Rule.failsHere_token (avoids ends)
    exact (Rule.FailsEarly.both_of_matched AlterPartitionOption.takes_comma (Nat.le_refl _) named).map
      Prod.snd

/-- What is known of a part that was read. -/
structure Reads (calls depth : Nat) (a : Alteration) : Prop where
  fits : (Codec.alteration a.endsInNames).edges.Fits a.written.lexemes
  sound : a.written.Sound
  takes : a.written.Good → ∀ pos rest, a.Follows rest →
    Grammar.alteration.Takes calls depth pos a.written.lexemes rest a

theorem refuses_comma :
    (Codec.alteration false).edges.follow.all (·.refuses (.symbol ",")) = true := by
  decide +kernel

/-- A part that was read is read back where the right tokens follow. -/
theorem reads_of_read {c next : Cursor} (scanned : Scanned Keywords.mysql c.rest)
    (read : Grammar.alteration.read calls c = .matched a next) : a.Reads calls c.depth := by
  obtain ⟨_, ⟨some, rfl⟩, back⟩ := (Codec.alteration a.endsInNames).written rfl scanned read rfl
  refine ⟨back.fits, back.sound, fun good pos rest follows => ?_⟩
  cases ends : a.endsInNames with
  | false =>
    rw [ends] at back
    apply back.takes good
    rcases follows with rfl | ⟨rest, rfl, -⟩
    · exact .nil _
    · exact Edges.avoids_tokensOf (by decide) refuses_comma
  | true =>
    have writable := back.sound.writable good
    have names : AlterPartitionOption.EndsNames calls c.depth rest :=
      endsNames_of_follows follows ends
    cases a with
    | option o => cases ends
    | partition o =>
      refine Rule.either_matched_iff.2
        (.inr ⟨AlterPartitionOption.failsEarly_alterOption writable,
          Rule.Takes.map Alteration.partition ?_⟩)
      cases o with
      | dropPartition ns => exact AlterPartitionOption.takes_dropPartition names some writable
      | maintain operation partitions =>
        cases partitions with
        | all => cases ends
        | names ns => exact AlterPartitionOption.takes_maintain names some writable
      | _ => cases ends

/-- The lexemes of the parts after the first one, each with its comma. -/
def afterComma (as : List Alteration) : List Lexeme :=
  as.flatMap fun a => .symbol "," :: a.written.lexemes

/-- The lexemes of a list of parts. -/
def listed : List Alteration → List Lexeme
  | [] => []
  | a :: as => a.written.lexemes ++ afterComma as

/-- A part that ends in names has a part with a reserved first word after it. -/
def Apart (as : List Alteration) : Prop :=
  as.IsChain fun a b => a.endsInNames = true → b.startsReserved = true

theorem avoids_of_startsReserved (reserved : a.startsReserved = true)
    (writable : ∀ l ∈ a.written.lexemes, l.Writable) :
    Avoids [.identifier] (tokensOf a.written.lexemes ++ rest) := by
  cases a with
  | option o => cases reserved
  | partition o =>
    have opens := o.head_lexemes
    obtain ⟨ls, whole⟩ : ∃ ls, o.layout.lexemes = .word o.firstWord :: ls := by
      cases lexemes : o.layout.lexemes with
      | nil => simp [lexemes] at opens
      | cons l ls => exact ⟨ls, by simpa [lexemes] using opens⟩
    have here : (Alteration.partition o).written.lexemes = .word o.firstWord :: ls := whole
    rw [here] at writable ⊢
    have refused : Terminal.identifier.refuses (.word o.firstWord) = true := reserved
    exact Edges.avoids_tokensOf (writable _ List.mem_cons_self)
      (List.all_eq_true.2 fun t ht => List.mem_singleton.1 ht ▸ refused)

theorem follows_afterComma {as : List Alteration} (apart : Apart (a :: as))
    (writable : ∀ b ∈ as, ∀ l ∈ b.written.lexemes, l.Writable) :
    a.Follows (tokensOf (afterComma as)) := by
  cases as with
  | nil => exact .inl rfl
  | cons b as =>
    refine .inr ⟨tokensOf b.written.lexemes ++ tokensOf (afterComma as), ?_, fun ends => ?_⟩
    · simp [afterComma]
    · exact avoids_of_startsReserved ((List.isChain_cons_cons.1 apart).1 ends)
        (writable b List.mem_cons_self)

theorem rounds_afterComma {as : List Alteration} (apart : Apart as)
    (reads : ∀ a ∈ as, a.Reads calls depth) (good : ∀ a ∈ as, a.written.Good) (pos : Nat) :
    Rule.Rounds calls (Grammar.literal "," *> Grammar.alteration)
      ⟨pos, tokensOf (afterComma as), depth⟩ as ⟨pos + (afterComma as).length, [], depth⟩ := by
  induction as generalizing pos with
  | nil =>
    exact .stop (((Rule.failsHere_token (Avoids.nil _)).both Grammar.alteration).map Prod.snd).early
  | cons a as ih =>
    obtain ⟨own, later⟩ := List.forall_mem_cons.1 reads
    obtain ⟨goodA, goodAs⟩ := List.forall_mem_cons.1 good
    have writable : ∀ b ∈ as, ∀ l ∈ b.written.lexemes, l.Writable := fun b hb =>
      (later b hb).sound.writable (goodAs b hb)
    have part := own.takes goodA (pos + 1) _ (follows_afterComma apart writable)
    have first : (Grammar.literal "," *> Grammar.alteration).Takes calls depth pos
        ([.symbol ","] ++ a.written.lexemes) (tokensOf (afterComma as)) a :=
      (AlterPartitionOption.takes_comma.both part).map Prod.snd
    have lexemes : afterComma (a :: as) = [.symbol ","] ++ a.written.lexemes ++ afterComma as := rfl
    rw [lexemes, tokensOf_append, List.length_append, ← Nat.add_assoc]
    exact .round first (by simp) (ih (List.isChain_of_isChain_cons apart) later goodAs _)

/-- Parts that were read are read back in any order in which names end where they should. -/
theorem takes_listed {as : List Alteration} (apart : Apart as)
    (reads : ∀ a ∈ as, a.Reads calls depth) (good : ∀ a ∈ as, a.written.Good) (pos : Nat) :
    (Grammar.commaList0 Grammar.alteration).Takes calls depth pos (listed as) [] as := by
  cases as with
  | nil =>
    have starts : (Grammar.commaList Grammar.alteration).Starts :=
      Codec.starts_commaList ⟨rfl, rfl⟩
    have none : (Grammar.commaList Grammar.alteration).FailsHere calls ⟨pos, [], depth⟩ :=
      Rule.failsHere_of_avoids starts.first_eq starts.solid (Avoids.nil _)
    exact Rule.map_matched_iff.2
      ⟨_, Rule.optional_matched_iff.2 (.inr ⟨rfl, rfl, none.early⟩), rfl⟩
  | cons a as =>
    obtain ⟨own, later⟩ := List.forall_mem_cons.1 reads
    obtain ⟨goodA, goodAs⟩ := List.forall_mem_cons.1 good
    have writable : ∀ b ∈ as, ∀ l ∈ b.written.lexemes, l.Writable := fun b hb =>
      (later b hb).sound.writable (goodAs b hb)
    have first := own.takes goodA pos _ (follows_afterComma apart writable)
    have rounds := rounds_afterComma (List.isChain_of_isChain_cons apart) later goodAs
      (pos + a.written.lexemes.length)
    have whole : (Grammar.commaList Grammar.alteration).read calls
        ⟨pos, tokensOf a.written.lexemes ++ tokensOf (afterComma as), depth⟩ = .matched (a :: as)
        ⟨pos + a.written.lexemes.length + (afterComma as).length, [], depth⟩ :=
      Rule.sepBy1_matched_iff.2 ⟨a, _, as, rfl, first, rounds⟩
    rw [listed, Rule.Takes, tokensOf_append, List.append_nil, List.length_append, ← Nat.add_assoc]
    exact Rule.map_matched_iff.2
      ⟨some (a :: as), Rule.optional_matched_iff.2 (.inl ⟨_, rfl, whole⟩), rfl⟩

/-- All parts of a list that was read are read back. -/
theorem reads_of_parts {c next : Cursor} {as : List Alteration}
    (scanned : Scanned Keywords.mysql c.rest)
    (read : (Grammar.commaList0 Grammar.alteration).read calls c = .matched as next) :
    ∀ a ∈ as, a.Reads calls c.depth := by
  obtain ⟨o, list, rfl⟩ := Rule.map_matched_iff.1 read
  rcases Rule.optional_matched_iff.1 list with ⟨as, rfl, some⟩ | ⟨rfl, -, -⟩
  · obtain ⟨a, mid, later, rfl, first, rounds⟩ := Rule.sepBy1_matched_iff.1 some
    refine List.forall_mem_cons.2 ⟨reads_of_read scanned first, ?_⟩
    refine forall_of_rounds (scanned_of_read scanned first) rounds fun deep scanned read => ?_
    obtain ⟨_, inner, comma, item⟩ := Rule.seqRight_matched_iff.1 read
    rw [← depth_of_read first, ← deep, ← depth_of_read comma]
    exact reads_of_read (scanned_of_read scanned comma) item
  · simp

/-- A comma is no number, so nothing has to be known of the parts around it. -/
theorem fits_afterComma (as : List Alteration) :
    Edges.Fits ⟨[none, some (.symbol ",")], [], true⟩ (afterComma as) := by
  refine ⟨?_, nofun⟩
  cases as <;> simp [afterComma, Lexeme.shape]

theorem fits_part (own : a.Reads calls depth) :
    Edges.Fits ⟨(Codec.alteration a.endsInNames).edges.opens, [], true⟩ a.written.lexemes :=
  ⟨own.fits.opens, nofun⟩

theorem tame_part {as : List Alteration} (own : a.Reads calls depth) (tame : Tame (afterComma as)) :
    Tame (a.written.lexemes ++ afterComma as) :=
  Edges.tame_append rfl (fits_part own) (fits_afterComma as) own.sound.2 tame

theorem tame_afterComma {as : List Alteration} (reads : ∀ a ∈ as, a.Reads calls depth) :
    Tame (afterComma as) := by
  induction as with
  | nil => exact .nil
  | cons a as ih =>
    obtain ⟨own, later⟩ := List.forall_mem_cons.1 reads
    have comma : (Edges.symbol ",").Fits [.symbol ","] :=
      ⟨by simp [Edges.symbol, Lexeme.shape], by simp [Edges.symbol]⟩
    have off : (Edges.symbol ",").ends = false := by decide
    have whole : Tame ([.symbol ","] ++ (a.written.lexemes ++ afterComma as)) :=
      Edges.tame_append (Edges.joins_of_symbol off _) comma
        ((fits_part own).append (fits_afterComma as)) (.singleton _) (tame_part own (ih later))
    simpa [afterComma] using whole

theorem writable_listed {as : List Alteration} (reads : ∀ a ∈ as, a.Reads calls depth)
    (good : ∀ a ∈ as, a.written.Good) : ∀ l ∈ listed as, l.Writable := by
  have part (a : Alteration) (ha : a ∈ as) : ∀ l ∈ a.written.lexemes, l.Writable :=
    (reads a ha).sound.writable (good a ha)
  cases as with
  | nil => simp [listed]
  | cons a as =>
    obtain ⟨own, later⟩ := List.forall_mem_cons.1 part
    intro l hl
    rcases List.mem_append.1 hl with hl | hl
    · exact own l hl
    · obtain ⟨b, hb, hl⟩ := List.mem_flatMap.1 hl
      rcases List.mem_cons.1 hl with rfl | hl
      · decide
      · exact later b hb l hl

end Alteration
end TableDdl
