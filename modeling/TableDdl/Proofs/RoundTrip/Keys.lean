import TableDdl.Key
import TableDdl.Proofs.RoundTrip.Clauses

/-!
# Codecs of keys, references and checks

A key is written after its constraint, so the rule for its body gives a text that serves with any
constraint. A check with a constraint is read back as a constrained key.
-/
namespace TableDdl

open Writes

def KeyPart.written (p : KeyPart) : Written := ⟨p.layout.lexemes, [], p.heads⟩

def Constraint.written (c : Constraint) : Written :=
  .plain (Constraint.layoutBefore (some c)).lexemes

def Reference.written (r : Reference) : Written := ⟨r.layout.lexemes, [], r.heads⟩

def Check.written (c : Check) : Written := ⟨c.layout.lexemes, [], c.heads⟩

def KeyDefinition.written (k : KeyDefinition) : Written := ⟨k.layout.lexemes, [], k.heads⟩

/-- The text of key parts. -/
def KeyPart.listWritten (parts : List KeyPart) : Written :=
  ⟨(KeyPart.list parts).lexemes, [], parts.flatMap KeyPart.heads⟩

namespace Reference

variable {table : TableName} {parts : List KeyPart} {matchType : Option MatchType}
  {ts : List Trigger} {t : Trigger} {r : Reference}

/-- The triggers of a reference in the order in which they are written. -/
def triggers (r : Reference) : List Trigger :=
  r.onDelete.toList.map .onDelete ++ r.onUpdate.toList.map .onUpdate

theorem ofParts_triggers (r : Reference) :
    ofParts r.table r.parts r.matchType r.triggers = r := by
  obtain ⟨table, parts, matchType, onDelete, onUpdate⟩ := r
  cases onDelete <;> cases onUpdate <;> rfl

/-- Triggers change the actions alone, and an action is that of some trigger. -/
theorem foldl_add (ts : List Trigger) (r : Reference) :
    (ts.foldl add r).table = r.table ∧ (ts.foldl add r).parts = r.parts ∧
      (ts.foldl add r).matchType = r.matchType ∧
      ∀ t ∈ (ts.foldl add r).triggers, t ∈ r.triggers ∨ t ∈ ts := by
  induction ts generalizing r with
  | nil => exact ⟨rfl, rfl, rfl, fun t ht => .inl ht⟩
  | cons first ts ih =>
    obtain ⟨table, parts, matchType, actions⟩ := ih (r.add first)
    have same : ∀ t ∈ (r.add first).triggers, t ∈ r.triggers ∨ t = first := by
      intro t ht
      cases first <;> simp only [triggers, add, List.mem_append, Option.toList_some,
        List.map_cons, List.map_nil, List.mem_singleton] at ht ⊢ <;> tauto
    refine ⟨by rw [List.foldl_cons, table]; cases first <;> rfl,
      by rw [List.foldl_cons, parts]; cases first <;> rfl,
      by rw [List.foldl_cons, matchType]; cases first <;> rfl, fun t ht => ?_⟩
    rcases actions t ht with old | later
    · rcases same t old with old | rfl
      · exact .inl old
      · exact .inr List.mem_cons_self
    · exact .inr (List.mem_cons_of_mem _ later)

@[simp] theorem table_ofParts : (ofParts table parts matchType ts).table = table :=
  (foldl_add ts ⟨table, parts, matchType, none, none⟩).1

@[simp] theorem parts_ofParts : (ofParts table parts matchType ts).parts = parts :=
  (foldl_add ts ⟨table, parts, matchType, none, none⟩).2.1

@[simp] theorem matchType_ofParts : (ofParts table parts matchType ts).matchType = matchType :=
  (foldl_add ts ⟨table, parts, matchType, none, none⟩).2.2.1

/-- A reference comes out the same from its own triggers alone. -/
theorem ofParts_ofParts (ts : List Trigger) :
    ofParts table parts matchType (ofParts table parts matchType ts).triggers =
      ofParts table parts matchType ts := by
  simpa using ofParts_triggers (ofParts table parts matchType ts)

theorem mem_of_mem_triggers (h : t ∈ (ofParts table parts matchType ts).triggers) : t ∈ ts := by
  rcases (foldl_add ts ⟨table, parts, matchType, none, none⟩).2.2.2 t h with none | mem
  · simp [triggers] at none
  · exact mem

end Reference

namespace Codec

def tableName : Codec Grammar.tableName (Exactly fun t => .plain t.layout.lexemes) :=
  ((identifier.map TableName.ofParts).seq (identifier.led (.symbol ".")).given).restate (by
    rintro _ _ ⟨_, second, _, _, ⟨first, rfl, rfl⟩, rfl, rfl, rfl⟩
    cases second <;> rfl)

def visibility : Codec Grammar.visibility (Exactly fun b => .plain (Layout.visibility b).lexemes) :=
  (asTo (.word "VISIBLE") true _).orElse (asTo (.word "INVISIBLE") false _)

def indexType : Codec Grammar.indexType
    (Exactly fun t => .plain (.word "USING" :: (Spelled.words t).map .word)) :=
  led (.word "USING") spelled

def indexOption : Codec Grammar.indexOption (Exactly fun o => .plain o.layout.lexemes) :=
  (mapTo IndexOption.keyBlockSize _ (long.setting (.word "KEY_BLOCK_SIZE"))).orElse
  ((mapTo IndexOption.indexType _ indexType).orElse
  ((mapTo IndexOption.withParser _ (identifier.led ((Mark.word "WITH").after (.word "PARSER")))).orElse
  ((mapTo IndexOption.comment _ (string.led (.word "COMMENT"))).orElse
  ((mapTo IndexOption.visible _ visibility).orElse
  ((mapTo IndexOption.engineAttribute _ (string.setting (.word "ENGINE_ATTRIBUTE"))).orElse
  (mapTo IndexOption.secondaryEngineAttribute _
    (string.setting (.word "SECONDARY_ENGINE_ATTRIBUTE"))))))))

def indexOptions : Codec Grammar.indexOption.many
    (Exactly fun os => .plain (Layout.appended (os.map IndexOption.layout)).lexemes) :=
  indexOption.repetition.restate (by
    rintro os _ rfl
    apply Written.ext <;> simp [Layout.appended, List.flatMap_map])

def keyPartTarget : Codec (KeyPartTarget.column <$> Grammar.identifier
      <*> (Grammar.parenthesized Grammar.integer).optional
    <|> KeyPartTarget.expression <$> Grammar.parenthesized Grammar.expression)
    (Exactly fun t => ⟨t.layout.lexemes, [], t.heads⟩) :=
  (((identifier.map KeyPartTarget.column).seq integer.parenthesized.optional).either
    (expression.map KeyPartTarget.expression)).restate (by
    rintro _ _ (⟨_, length, _, _, ⟨name, rfl, rfl⟩, text, rfl, rfl⟩ | ⟨e, rfl, rfl⟩)
    · cases length with
      | none =>
        obtain rfl := text
        rfl
      | some n =>
        obtain ⟨_, ⟨_, rfl, rfl⟩, rfl⟩ := text
        rfl
    · rfl)

def keyPart : Codec Grammar.keyPart (Exactly KeyPart.written) :=
  ((keyPartTarget.map KeyPart.mk).seq (given spelled)).restate (by
    rintro _ _ ⟨_, order, _, _, ⟨target, rfl, rfl⟩, rfl, rfl, rfl⟩
    apply Written.ext <;> simp [KeyPart.written, KeyPart.layout, KeyPart.heads, Spelled.words])

def keyParts : Codec Grammar.keyParts (Exactly KeyPart.listWritten) :=
  keyPart.commas.parenthesized.restate (by
    rintro parts _ ⟨_, ⟨_, ⟨-, rfl⟩, rfl⟩, rfl⟩
    apply Written.ext <;> simp [KeyPart.listWritten, KeyPart.list])

/-- An action of each kind of trigger. -/
def triggerWords : Reference.Trigger → List String
  | .onDelete action => "ON" :: "DELETE" :: Spelled.words action
  | .onUpdate action => "ON" :: "UPDATE" :: Spelled.words action

def trigger : Codec Grammar.trigger (Exactly fun t => .plain ((triggerWords t).map .word)) :=
  led (.word "ON") ((mapTo Reference.Trigger.onDelete
      (fun t => .plain ((triggerWords t).tail.map .word)) (led (.word "DELETE") spelled)).orElse
    (mapTo Reference.Trigger.onUpdate (fun t => .plain ((triggerWords t).tail.map .word))
      (led (.word "UPDATE") spelled))) |>.restate (by
    rintro (action | action) _ rfl <;> rfl)

/-- The text of a reference without its triggers. -/
def ReferenceBody (f : List Reference.Trigger → Reference) (t : Written) : Prop :=
  ∃ table parts matchType, f = Reference.ofParts table parts matchType ∧
    t = (Reference.mk table parts matchType none none).written

def referenceBody : Codec (Reference.ofParts <$> (Grammar.literal "REFERENCES" *> Grammar.tableName)
    <*> Grammar.keyParts <*> (Grammar.literal "MATCH" *> Grammar.spelled).optional)
    ReferenceBody :=
  ((((tableName.led (.word "REFERENCES")).map Reference.ofParts).seq keyParts).seq
    (led (.word "MATCH") spelled).given).restate (by
    rintro _ _ ⟨_, m, _, _, ⟨_, parts, _, _, ⟨table, rfl, rfl⟩, rfl, rfl, rfl⟩, rfl, rfl, rfl⟩
    refine ⟨table, parts, m, rfl, ?_⟩
    apply Written.ext <;>
      simp [Reference.written, Reference.layout, Reference.heads, KeyPart.listWritten,
        Spelled.words])

/-- The text of the triggers of a reference. -/
def triggerText (ts : List Reference.Trigger) : Written :=
  .concat (ts.map fun t => .plain ((triggerWords t).map .word))

theorem reference_written (r : Reference) : r.written =
    (Reference.mk r.table r.parts r.matchType none none).written ++ triggerText r.triggers := by
  obtain ⟨_, _, _, onDelete, onUpdate⟩ := r
  cases onDelete <;> cases onUpdate <;> apply Written.ext <;>
    simp [Reference.triggers, Reference.written, Reference.layout, Reference.heads, triggerText,
      triggerWords, Spelled.words]

/-- Triggers are written once each, those for deletions first. -/
def reference : Codec Grammar.reference (Exactly Reference.written) :=
  referenceBody.seqAs (trigger.edges.repeated Grammar.trigger.starts) (by
    rintro calls c next ts scanned read _ _ ⟨table, parts, matchType, rfl, rfl⟩
    have starts : Grammar.trigger.Starts := ⟨rfl, rfl⟩
    have rounds := (Rule.many_matched_iff (Rule.consumes_of_some starts.solid)).1 read
    obtain ⟨us, writes, backs⟩ := trigger.written_of_rounds (by decide +kernel) rounds scanned
    obtain rfl := forall₂_exactly.1 writes
    rw [List.forall₂_map_right_iff, List.forall₂_same] at backs
    let r := Reference.ofParts table parts matchType ts
    refine ⟨r.triggers, triggerText r.triggers, Reference.ofParts_ofParts ts, ?_, ?_⟩
    · have whole := reference_written r
      rw [Reference.table_ofParts, Reference.parts_ofParts, Reference.matchType_ofParts] at whole
      exact whole.symm
    · apply Rule.ReadsBack.many starts.first_eq starts.solid (by decide +kernel) (by decide +kernel)
      rw [List.forall₂_map_right_iff, List.forall₂_same]
      exact fun t ht => backs t (Reference.mem_of_mem_triggers ht))

def constraint : Codec Grammar.constraint (Exactly Constraint.written) :=
  mapTo Constraint.mk _ (led (.word "CONSTRAINT") identifier.given) (by
    rintro (_ | n) <;> rfl)

def enforcement : Codec Grammar.enforcement
    (Exactly fun b => .plain (enforcementWords b).lexemes) :=
  (asTo (.word "ENFORCED") true _).orElse
    (asTo ((Mark.word "NOT").after (.word "ENFORCED")) false _)

/-- The text of a check that serves with any constraint before it. -/
def CheckBody (f : Option Constraint → Check) (t : Written) : Prop :=
  ∀ c, (f c).written = .plain (Constraint.layoutBefore c).lexemes ++ t

def checkBody : Codec Grammar.checkBody CheckBody :=
  (((expression.led (.word "CHECK")).map
    fun condition enforced constraint => Check.mk constraint condition enforced).seq
      enforcement.given).restate (by
    rintro _ _ ⟨_, enforced, _, _, ⟨condition, rfl, rfl⟩, rfl, rfl, rfl⟩ c
    apply Written.ext <;> simp [Check.written, Check.layout, Check.heads])

def check : Codec Grammar.check (Exactly Check.written) :=
  ((constraint.given.map fun c (body : Option Constraint → Check) => body c).seq checkBody).restate (by
    rintro _ _ ⟨_, body, _, t, ⟨c, rfl, rfl⟩, text, rfl, rfl⟩
    rw [Exactly, text c]
    cases c <;> rfl)

def indexOrKey : Mark Grammar.indexOrKey [.word "KEY"] :=
  .right (Grammar.literal "INDEX") (.word "KEY")

/-- The text of a key that serves with any constraint before it. -/
def KeyBody (f : Option Constraint → KeyDefinition) (t : Written) : Prop :=
  ∀ c, (f c).written = .plain (Constraint.layoutBefore c).lexemes ++ t

def primaryKey : Codec Grammar.primaryKey KeyBody :=
  (((indexType.given.led ((Mark.word "PRIMARY").after (.word "KEY"))).map fun type parts options c =>
    KeyDefinition.primaryKey c type parts options).seq keyParts).seq indexOptions |>.restate (by
    rintro _ _ ⟨_, options, _, _, ⟨_, parts, _, _, ⟨type, rfl, rfl⟩, rfl, rfl, rfl⟩, rfl, rfl, rfl⟩ c
    apply Written.ext <;> simp [KeyDefinition.written, KeyDefinition.layout, KeyDefinition.tail,
      KeyDefinition.heads, KeyPart.listWritten, Spelled.words])

def uniqueKey : Codec Grammar.uniqueKey KeyBody :=
  ((((identifier.given.led ((Mark.word "UNIQUE").after (.given indexOrKey))).map
    fun name type parts options c => KeyDefinition.uniqueKey c name type parts options).seq
      indexType.given).seq keyParts).seq indexOptions |>.restate (by
    rintro _ _ ⟨_, options, _, _, ⟨_, parts, _, _, ⟨_, type, _, _, ⟨name, rfl, rfl⟩, rfl, rfl, rfl⟩,
      rfl, rfl, rfl⟩, rfl, rfl, rfl⟩ c
    apply Written.ext <;> simp [KeyDefinition.written, KeyDefinition.layout, KeyDefinition.tail,
      KeyDefinition.heads, KeyPart.listWritten, Spelled.words])

def foreignKey : Codec Grammar.foreignKey KeyBody :=
  (((identifier.given.led ((Mark.word "FOREIGN").after (.word "KEY"))).map
    fun name columns reference c => KeyDefinition.foreignKey c name columns reference).seq
      parenthesizedNames).seq reference |>.restate (by
    rintro _ _ ⟨_, reference, _, _, ⟨_, columns, _, _, ⟨name, rfl, rfl⟩, rfl, rfl, rfl⟩,
      rfl, rfl, rfl⟩ c
    apply Written.ext <;> simp [KeyDefinition.written, KeyDefinition.layout, KeyDefinition.heads,
      Reference.written])

def specialIndex : Codec Grammar.specialIndex (Exactly KeyDefinition.written) :=
  (((map KeyDefinition.specialIndex spelled).seq
    (identifier.given.led (.given indexOrKey))).seq keyParts).seq indexOptions |>.restate (by
    rintro _ _ ⟨_, options, _, _, ⟨_, parts, _, _, ⟨_, name, _, _, ⟨kind, rfl, rfl⟩, rfl, rfl, rfl⟩,
      rfl, rfl, rfl⟩, rfl, rfl, rfl⟩
    apply Written.ext <;> simp [KeyDefinition.written, KeyDefinition.layout, KeyDefinition.tail,
      KeyDefinition.heads, KeyPart.listWritten, Spelled.words])

def simpleIndex : Codec Grammar.simpleIndex (Exactly KeyDefinition.written) :=
  ((((identifier.given.led indexOrKey).map KeyDefinition.index).seq indexType.given).seq
    keyParts).seq indexOptions |>.restate (by
    rintro _ _ ⟨_, options, _, _, ⟨_, parts, _, _, ⟨_, type, _, _, ⟨name, rfl, rfl⟩, rfl, rfl, rfl⟩,
      rfl, rfl, rfl⟩, rfl, rfl, rfl⟩
    apply Written.ext <;> simp [KeyDefinition.written, KeyDefinition.layout, KeyDefinition.tail,
      KeyDefinition.heads, KeyPart.listWritten, Spelled.words])

def checkKey : Codec ((fun body (c : Option Constraint) => KeyDefinition.check (body c)) <$>
    Grammar.checkBody) KeyBody :=
  (checkBody.map _).restate (by
    rintro _ t ⟨body, text, rfl⟩
    exact text)

/-- After a constraint, the body of a check is read as that of a key. -/
theorem readsBack_checkKey {calls depth : Nat} {body : Option Constraint → Check} {t : Written}
    (h : Grammar.checkBody.ReadsBack calls depth checkBody.edges body t) :
    (Rule.oneOf Grammar.primaryKey [Grammar.uniqueKey, Grammar.foreignKey,
      (fun body c => KeyDefinition.check (body c)) <$> Grammar.checkBody]).ReadsBack calls depth
      checkBody.edges (fun c => .check (body c)) t := by
  have key := h.map fun body (c : Option Constraint) => KeyDefinition.check (body c)
  have foreign := key.refusing (r := Grammar.foreignKey) ⟨rfl, rfl⟩ (by decide +kernel)
  have unique := foreign.refusing (r := Grammar.uniqueKey) ⟨rfl, rfl⟩ (by decide +kernel)
  exact unique.refusing (r := Grammar.primaryKey) ⟨rfl, rfl⟩ (by decide +kernel)

/-- The bodies of keys that stand after a constraint. -/
def constrainedBody : Codec (.oneOf Grammar.primaryKey [Grammar.uniqueKey, Grammar.foreignKey,
    (fun body c => KeyDefinition.check (body c)) <$> Grammar.checkBody]) KeyBody :=
  primaryKey.orElse (uniqueKey.orElse (foreignKey.orElse checkKey))

def constrained : Codec Grammar.constrained (Exactly KeyDefinition.written) :=
  ((constraint.map fun c (body : Option Constraint → KeyDefinition) => body (some c)).seq
    constrainedBody).restate (by
    rintro _ _ ⟨_, body, _, t, ⟨c, rfl, rfl⟩, text, rfl, rfl⟩
    exact (text (some c)).symm)

/-- A key without a constraint before it. -/
def bare {r : DdlRule (Option Constraint → KeyDefinition)} (F : Codec r KeyBody) :
    Codec ((· none) <$> r) (Exactly KeyDefinition.written) :=
  (F.map (· none)).restate (by
    rintro _ t ⟨body, text, rfl⟩
    exact (text none).symm)

end Codec

/-- A check with a constraint is read as a constrained key. -/
def KeyDefinition.isConstrainedCheck : KeyDefinition → Bool
  | .check c => c.constraint.isSome
  | _ => false

/-- The keys that start with the word of their kind, and checks. -/
def Grammar.unconstrained : DdlRule KeyDefinition :=
  .oneOf ((· none) <$> primaryKey) [
    (· none) <$> uniqueKey,
    (· none) <$> foreignKey,
    specialIndex,
    KeyDefinition.check <$> check,
    simpleIndex]

namespace Codec

theorem yields_checkBody : Grammar.checkBody.Yields fun f => ∀ c, (f c).constraint = c :=
  Rule.Yields.seq (Rule.Yields.map fun _ _ _ => rfl)

/-- A check that was read comes from a body, with a constraint or none before it. -/
theorem check_matched {calls : Nat} {c next : Cursor} {x : Check}
    (read : Grammar.check.read calls c = .matched x next) :
    ∃ body mid, x = body x.constraint ∧
      Grammar.constraint.optional.read calls c = .matched x.constraint mid ∧
      Grammar.checkBody.read calls mid = .matched body next := by
  obtain ⟨⟨_, body⟩, matched, rfl⟩ := Rule.map_matched_iff.1 read
  obtain ⟨mid, mapped, second⟩ := Rule.both_matched_iff.1 matched
  obtain ⟨o, first, rfl⟩ := Rule.map_matched_iff.1 mapped
  have same : (body o).constraint = o := yields_checkBody _ _ _ _ second o
  exact ⟨body, mid, by rw [same], by rw [same]; exact first, second⟩

def bareCheck : On (fun c : Check => c.constraint.isSome) false Grammar.check
    (Exactly Check.written) where
  edges := (Edges.absent Grammar.constraint.starts).andThen checkBody.edges
  coherent := checkBody.coherent
  written {calls c next x} ok scanned read bare := by
    obtain ⟨body, mid, whole, first, second⟩ := check_matched read
    have starts : Grammar.constraint.Starts := ⟨rfl, rfl⟩
    have free : x.constraint = none := by simpa using bare
    rw [free] at whole first
    rcases Rule.optional_matched_iff.1 first with ⟨_, given, -⟩ | ⟨-, rfl, -⟩
    · cases given
    obtain ⟨t, writes, back⟩ := checkBody.written ok scanned second
    have absent : Grammar.constraint.optional.ReadsBack calls mid.depth _ none .nil :=
      .absent starts.first_eq starts.solid
    refine ⟨.nil ++ t, ?_, ?_⟩
    · rw [whole]
      exact (writes none).symm
    · rw [whole]
      exact ((absent.map fun c (body : Option Constraint → Check) => body c).both back
        (by decide +kernel)).map _

def unconstrained : On KeyDefinition.isConstrainedCheck false Grammar.unconstrained
    (Exactly KeyDefinition.written) :=
  ((On.ofCodec (bare primaryKey)).either ((On.ofCodec (bare uniqueKey)).either
    ((On.ofCodec (bare foreignKey)).either ((On.ofCodec specialIndex).either
      ((On.map KeyDefinition.check bareCheck).either (On.ofCodec simpleIndex)))))).restate (by
    rintro _ _ (text | text | text | text | ⟨c, rfl, rfl⟩ | text)
    · exact text
    · exact text
    · exact text
    · exact text
    · rfl
    · exact text)

/-- A check with a constraint was read by the rule for checks. -/
theorem check_of_unconstrained {calls : Nat} {c next : Cursor} {k : KeyDefinition}
    (read : Grammar.unconstrained.read calls c = .matched k next)
    (constrained : k.isConstrainedCheck = true) :
    ∃ x, k = .check x ∧ x.constraint.isSome = true ∧ Grammar.check.read calls c = .matched x next := by
  have free {r : DdlRule (Option Constraint → KeyDefinition)}
      (h : r.Yields fun f => (f none).isConstrainedCheck = false) :
      ((· none) <$> r).Yields fun k => k.isConstrainedCheck = false := by
    intro calls c k next read
    obtain ⟨f, matched, rfl⟩ := Rule.map_matched_iff.1 read
    exact h _ _ _ _ matched
  have primary : Grammar.primaryKey.Yields fun f => (f none).isConstrainedCheck = false :=
    Rule.Yields.seq (Rule.Yields.seq (Rule.Yields.map fun _ _ _ => rfl))
  have unique : Grammar.uniqueKey.Yields fun f => (f none).isConstrainedCheck = false :=
    Rule.Yields.seq (Rule.Yields.seq (Rule.Yields.seq (Rule.Yields.map fun _ _ _ _ => rfl)))
  have foreign : Grammar.foreignKey.Yields fun f => (f none).isConstrainedCheck = false :=
    Rule.Yields.seq (Rule.Yields.seq (Rule.Yields.map fun _ _ _ => rfl))
  have special : Grammar.specialIndex.Yields fun k => k.isConstrainedCheck = false :=
    Rule.Yields.seq (Rule.Yields.seq (Rule.Yields.seq (Rule.Yields.map fun _ _ _ _ => rfl)))
  have simple : Grammar.simpleIndex.Yields fun k => k.isConstrainedCheck = false :=
    Rule.Yields.seq (Rule.Yields.seq (Rule.Yields.seq (Rule.Yields.map fun _ _ _ _ => rfl)))
  have never : ¬ k.isConstrainedCheck = false := by simp [constrained]
  have rest := special.read_right never ((free foreign).read_right never
    ((free unique).read_right never ((free primary).read_right never read)))
  rcases Rule.either_matched_iff.1 rest with matched | ⟨-, matched⟩
  · obtain ⟨x, own, rfl⟩ := Rule.map_matched_iff.1 matched
    exact ⟨x, rfl, constrained, own⟩
  · exact absurd (simple _ _ _ _ matched) never

def keyDefinition : Codec Grammar.keyDefinition (Exactly KeyDefinition.written) where
  edges := constrained.edges.orElse unconstrained.edges
  coherent := constrained.coherent && unconstrained.coherent
  written {calls c next k} ok scanned read := by
    simp only [Bool.and_eq_true] at ok
    rcases Rule.either_matched_iff.1 read with matched | ⟨-, matched⟩
    · obtain ⟨t, writes, back⟩ := constrained.written ok.1 scanned matched
      exact ⟨t, writes, back.left.within (within_orElse_left _ _)⟩
    have starts : Grammar.constrained.Starts := ⟨rfl, rfl⟩
    cases kind : k.isConstrainedCheck with
    | false =>
      obtain ⟨t, writes, back⟩ := unconstrained.written ok.2 scanned matched kind
      exact ⟨t, writes, (back.refusing starts (by decide +kernel)).within (within_orElse_right _ _)⟩
    | true =>
      obtain ⟨x, rfl, given, own⟩ := check_of_unconstrained matched kind
      obtain ⟨body, mid, whole, first, second⟩ := check_matched own
      obtain ⟨o, same⟩ := Option.isSome_iff_exists.1 given
      rw [same] at whole first
      obtain ⟨_, ⟨⟩, first⟩ | ⟨⟨⟩, -⟩ := Rule.optional_matched_iff.1 first
      obtain ⟨_, rfl, back⟩ := constraint.written (by decide +kernel) scanned first
      obtain ⟨t, writes, back'⟩ :=
        checkBody.written (by decide +kernel) (scanned_of_read scanned first) second
      rw [depth_of_read first] at back'
      have named := back.map fun c (body : Option Constraint → KeyDefinition) => body (some c)
      have key : Grammar.constrained.ReadsBack calls c.depth _ (.check (body (some o)))
          (o.written ++ t) := (named.both (readsBack_checkKey back') (by decide +kernel)).map _
      rw [whole]
      exact ⟨_, (writes (some o)).symm, key.left.within (by decide +kernel)⟩

end Codec
end TableDdl
