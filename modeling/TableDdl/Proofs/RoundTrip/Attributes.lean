import TableDdl.Column
import TableDdl.Proofs.RoundTrip.DataTypes
import TableDdl.Proofs.RoundTrip.Keys

/-!
# Codecs of column attributes

The attributes of a plain column are read in three parts: those before the collation, the
collation, and those after it.
-/
namespace TableDdl

open Writes

def TimeCall.written (c : TimeCall) : Written := .plain c.layout.lexemes

def DefaultValue.written (d : DefaultValue) : Written := ⟨d.layout.lexemes, [], d.heads⟩

def PlainAttributes.written (a : PlainAttributes) : Written := ⟨a.layout.lexemes, [], a.heads⟩

def GeneratedAttributes.written (a : GeneratedAttributes) : Written := ⟨a.layout.lexemes, [], a.heads⟩

namespace Codec

/-- The precision in parentheses, which may be empty. -/
def timeArguments : Codec (Grammar.parenthesized Grammar.integer.optional)
    (Exactly fun p => .plain (Layout.parenthesized (Layout.given p fun n => .integer n.toNat)).lexemes) :=
  integer.given.parenthesized.restate (by
    rintro p _ ⟨_, ⟨_, rfl, rfl⟩, rfl⟩
    cases p <;> rfl)

theorem readsBack_noArguments {calls depth : Nat} :
    (Grammar.parenthesized Grammar.integer.optional).optional.ReadsBack calls depth
      timeArguments.given.edges none .nil :=
  have starts : (Grammar.parenthesized Grammar.integer.optional).Starts := ⟨rfl, rfl⟩
  .within (.absent starts.first_eq starts.solid) (within_orElse_left _ _)

theorem readsBack_emptyArguments {calls depth : Nat} :
    (Grammar.parenthesized Grammar.integer.optional).optional.ReadsBack calls depth
      timeArguments.given.edges (some none) (.plain [.symbol "(", .symbol ")"]) := by
  have starts : (Grammar.integer : DdlRule UInt32).Starts := ⟨rfl, rfl⟩
  have opening : (Grammar.literal "(").ReadsBack calls depth (.symbol "(") "("
      (.plain [.symbol "("]) := .symbol (by decide)
  have closing : (Grammar.literal ")").ReadsBack calls depth (.symbol ")") ")"
      (.plain [.symbol ")"]) := .symbol (by decide)
  have absent : Grammar.integer.optional.ReadsBack calls depth _ none .nil :=
    .absent starts.first_eq starts.solid
  have opened := (opening.both absent (by decide)).map Prod.snd
  exact ((opened.both closing (by decide)).map Prod.fst).given.within (by decide)

/-- Empty parentheses are written after `NOW` alone. -/
def timeCall : Codec Grammar.timeCall (Exactly TimeCall.written) :=
  (map (fun function (precision : Option (Option UInt32)) => TimeCall.mk function precision.join)
    spelled).seqAs timeArguments.given.edges (by
    rintro calls c next precision scanned read _ _ ⟨function, rfl, rfl⟩
    obtain ⟨_, rfl, back⟩ := timeArguments.given.written (by decide +kernel) scanned read
    have bare : ∃ y u, TimeCall.mk function y.join = ⟨function, none⟩ ∧
        Exactly TimeCall.written ⟨function, none⟩
          (.plain ((Spelled.words function).map .word) ++ u) ∧
        (Grammar.parenthesized Grammar.integer.optional).optional.ReadsBack calls c.depth
          timeArguments.given.edges y u := by
      cases function with
      | now =>
        exact ⟨some none, .plain [.symbol "(", .symbol ")"], rfl, rfl, readsBack_emptyArguments⟩
      | _ => exact ⟨none, .nil, rfl, rfl, readsBack_noArguments⟩
    match precision with
    | none => exact bare
    | some none => exact bare
    | some (some p) => exact ⟨_, _, rfl, by cases function <;> rfl, back⟩)

def boolean : Codec Grammar.boolean (Exactly fun b => .plain (Layout.boolean b).lexemes) :=
  (asTo (.word "TRUE") true _).orElse (asTo (.word "FALSE") false _)

def defaultValue : Codec Grammar.defaultValue (Exactly DefaultValue.written) :=
  choice (alternative (mapTo DefaultValue.number _ number)) [
    alternative (mapTo DefaultValue.string _ string),
    alternative (mapTo DefaultValue.boolean _ boolean),
    alternative (asTo (.word "NULL") DefaultValue.null _),
    alternative ((expressions.map DefaultValue.array).restate (by
      rintro _ _ ⟨items, ⟨-, rfl⟩, rfl⟩
      rfl)),
    alternative (mapTo DefaultValue.time _ timeCall)]

def nullability : Codec Grammar.nullability
    (Exactly fun b => .plain (nullabilityWords b).lexemes) :=
  (asTo ((Mark.word "NOT").after (.word "NULL")) true _).orElse (asTo (.word "NULL") false _)

def uniqueAttribute : Codec Grammar.uniqueAttribute
    (Exactly fun b => if b then .plain [.word "UNIQUE"] else .nil) :=
  flag ((Mark.word "UNIQUE").after (.skip (Grammar.literal "KEY")))

def primaryAttribute : Codec Grammar.primaryAttribute
    (Exactly fun b => if b then .plain [.word "PRIMARY", .word "KEY"] else .nil) :=
  flag ((Mark.given (.word "PRIMARY")).after (.word "KEY"))

def comment : Codec Grammar.comment?
    (Exactly fun c => c.elim .nil fun c => .plain [.word "COMMENT", .string c]) :=
  (string.led (.word "COMMENT")).given

def generatedAttributes : Codec Grammar.generatedAttributes (Exactly GeneratedAttributes.written) :=
  ((((((((((expression.led ((Mark.given ((Mark.word "GENERATED").after (.word "ALWAYS"))).after
    (.word "AS"))).map GeneratedAttributes.mk).seq (given spelled)).seq nullability.given).seq
    visibility.given).seq uniqueAttribute).seq primaryAttribute).seq comment).seq
    reference.given).seq check.given) |>.restate (by
    rintro _ _ ⟨_, check, _, _, ⟨_, reference, _, _, ⟨_, comment, _, _, ⟨_, primary, _, _,
      ⟨_, unique, _, _, ⟨_, visible, _, _, ⟨_, notNull, _, _, ⟨_, storage, _, _,
      ⟨e, rfl, rfl⟩, rfl, rfl, rfl⟩, rfl, rfl, rfl⟩, rfl, rfl, rfl⟩, rfl, rfl, rfl⟩, rfl, rfl, rfl⟩,
      rfl, rfl, rfl⟩, rfl, rfl, rfl⟩, rfl, rfl, rfl⟩
    apply Written.ext <;>
      simp [GeneratedAttributes.written, GeneratedAttributes.layout, GeneratedAttributes.heads,
        Reference.written, Check.written, Spelled.words])

theorem coherent_generatedAttributes : generatedAttributes.coherent = true := by decide +kernel

end Codec

abbrev AttributeTail : Type :=
  Option ColumnFormat → Option String → Option String → Option StorageMedium → Option Reference →
    Option Check → PlainAttributes

namespace Grammar

def leadingAttributes : DdlRule (Option String → AttributeTail) :=
  PlainAttributes.mk
    <$> nullability.optional
    <*> (literal "DEFAULT" *> defaultValue).optional
    <*> (literal "ON" *> literal "UPDATE" *> timeCall).optional
    <*> visibility.optional
    <*> (literal "AUTO_INCREMENT").flag
    <*> uniqueAttribute
    <*> primaryAttribute
    <*> comment?

def trailingAttributes : DdlRule (AttributeTail → PlainAttributes) :=
  (fun format engine secondary storage reference check f =>
      f format engine secondary storage reference check)
    <$> (literal "COLUMN_FORMAT" *> spelled).optional
    <*> (setting (literal "ENGINE_ATTRIBUTE") string).optional
    <*> (setting (literal "SECONDARY_ENGINE_ATTRIBUTE") string).optional
    <*> (literal "STORAGE" *> spelled).optional
    <*> reference.optional
    <*> check.optional

def attributesAround : DdlRule PlainAttributes :=
  (fun f collation k => k (f collation))
    <$> leadingAttributes <*> collate.optional <*> trailingAttributes

end Grammar

theorem plainAttributes_matched_iff {calls : Nat} {c next : Cursor} {a : PlainAttributes} :
    Grammar.plainAttributes.read calls c = .matched a next ↔
      Grammar.attributesAround.read calls c = .matched a next := by
  have seq {α β : Type} {r : DdlRule (α → β)} {s : DdlRule α} {f : α → β} {x : α}
      {c mid next : Cursor} (first : r.read calls c = .matched f mid)
      (second : s.read calls mid = .matched x next) :
      (r <*> s).read calls c = .matched (f x) next :=
    Rule.seq_matched_iff.2 ⟨f, x, mid, first, second, rfl⟩
  constructor
  · intro h
    obtain ⟨_, check, _, h1, hcheck, rfl⟩ := Rule.seq_matched_iff.1 h
    obtain ⟨_, reference, _, h2, hreference, rfl⟩ := Rule.seq_matched_iff.1 h1
    obtain ⟨_, storage, _, h3, hstorage, rfl⟩ := Rule.seq_matched_iff.1 h2
    obtain ⟨_, secondary, _, h4, hsecondary, rfl⟩ := Rule.seq_matched_iff.1 h3
    obtain ⟨_, engine, _, h5, hengine, rfl⟩ := Rule.seq_matched_iff.1 h4
    obtain ⟨_, format, _, h6, hformat, rfl⟩ := Rule.seq_matched_iff.1 h5
    obtain ⟨f, collation, _, leading, hcollation, rfl⟩ := Rule.seq_matched_iff.1 h6
    rw [Grammar.attributesAround, Grammar.trailingAttributes]
    exact seq (seq (Rule.map_matched_iff.2 ⟨f, leading, rfl⟩) hcollation) (seq (seq (seq (seq (seq
      (Rule.map_matched_iff.2 ⟨format, hformat, rfl⟩) hengine) hsecondary) hstorage) hreference)
      hcheck)
  · intro h
    obtain ⟨_, k, _, h1, h2, rfl⟩ := Rule.seq_matched_iff.1 h
    obtain ⟨_, collation, _, h3, hcollation, rfl⟩ := Rule.seq_matched_iff.1 h1
    obtain ⟨f, leading, rfl⟩ := Rule.map_matched_iff.1 h3
    obtain ⟨_, check, _, t1, hcheck, rfl⟩ := Rule.seq_matched_iff.1 h2
    obtain ⟨_, reference, _, t2, hreference, rfl⟩ := Rule.seq_matched_iff.1 t1
    obtain ⟨_, storage, _, t3, hstorage, rfl⟩ := Rule.seq_matched_iff.1 t2
    obtain ⟨_, secondary, _, t4, hsecondary, rfl⟩ := Rule.seq_matched_iff.1 t3
    obtain ⟨_, engine, _, t5, hengine, rfl⟩ := Rule.seq_matched_iff.1 t4
    obtain ⟨format, hformat, rfl⟩ := Rule.map_matched_iff.1 t5
    exact seq (seq (seq (seq (seq (seq (seq leading hcollation) hformat) hengine) hsecondary)
      hstorage) hreference) hcheck

namespace PlainAttributes

/-- The text of a plain column's attributes is that of the first, of the collation and of the
last. -/
theorem written_eq (a : PlainAttributes) :
    ⟨a.layout.lexemes, a.collation.toList, a.heads⟩ =
      (PlainAttributes.mk a.notNull a.default a.onUpdate a.visible a.autoIncrement a.unique a.primary
        a.comment none none none none none none none).written
      ++ a.collation.elim .nil Codec.collation
      ++ (PlainAttributes.mk none none none none false false false none none a.format
        a.engineAttribute a.secondaryEngineAttribute a.storage a.reference a.check).written := by
  apply Written.ext <;>
    simp [written, layout, heads, Codec.collation, Codec.loose]

end PlainAttributes

namespace Codec

/-- The text of the attributes before the collation. -/
def Leading (f : Option String → AttributeTail) (t : Written) : Prop :=
  ∃ notNull default onUpdate visible autoIncrement unique primary comment,
    f = PlainAttributes.mk notNull default onUpdate visible autoIncrement unique primary comment ∧
    t = (f none none none none none none none).written

def leading : Codec Grammar.leadingAttributes Leading :=
  ((((((((nullability.given.map PlainAttributes.mk).seq
    (defaultValue.led (.word "DEFAULT")).given).seq
    (timeCall.led ((Mark.word "ON").after (.word "UPDATE"))).given).seq visibility.given).seq
    (flag (.word "AUTO_INCREMENT"))).seq uniqueAttribute).seq primaryAttribute).seq comment)
    |>.restate (by
    rintro _ _ ⟨_, comment, _, _, ⟨_, primary, _, _, ⟨_, unique, _, _, ⟨_, auto, _, _,
      ⟨_, visible, _, _, ⟨_, onUpdate, _, _, ⟨_, default, _, _, ⟨notNull, rfl, rfl⟩,
      rfl, rfl, rfl⟩, rfl, rfl, rfl⟩, rfl, rfl, rfl⟩, rfl, rfl, rfl⟩, rfl, rfl, rfl⟩,
      rfl, rfl, rfl⟩, rfl, rfl, rfl⟩
    refine ⟨notNull, default, onUpdate, visible, auto, unique, primary, comment, rfl, ?_⟩
    apply Written.ext <;>
      simp [PlainAttributes.written, PlainAttributes.layout, PlainAttributes.heads,
        DefaultValue.written, TimeCall.written])

/-- The text of the attributes after the collation. -/
def Trailing (k : AttributeTail → PlainAttributes) (t : Written) : Prop :=
  ∃ format engine secondary storage reference check,
    k = (fun f => f format engine secondary storage reference check) ∧
    t = (k (PlainAttributes.mk none none none none false false false none none)).written

def trailing : Codec Grammar.trailingAttributes Trailing :=
  ((((((given ((led (.word "COLUMN_FORMAT") spelled))).map _).seq
    (string.setting (.word "ENGINE_ATTRIBUTE")).given).seq
    (string.setting (.word "SECONDARY_ENGINE_ATTRIBUTE")).given).seq
    (led (.word "STORAGE") spelled).given).seq reference.given).seq check.given
    |>.restate (by
    rintro _ _ ⟨_, check, _, _, ⟨_, reference, _, _, ⟨_, storage, _, _, ⟨_, secondary, _, _,
      ⟨_, engine, _, _, ⟨format, rfl, rfl⟩, rfl, rfl, rfl⟩, rfl, rfl, rfl⟩, rfl, rfl, rfl⟩,
      rfl, rfl, rfl⟩, rfl, rfl, rfl⟩
    refine ⟨format, engine, secondary, storage, reference, check, rfl, ?_⟩
    apply Written.ext <;>
      simp [PlainAttributes.written, PlainAttributes.layout, PlainAttributes.heads,
        Reference.written, Check.written, Spelled.words])

theorem coherent_leading : leading.coherent = true := by decide +kernel

theorem coherent_trailing : trailing.coherent = true := by decide +kernel

end Codec
end TableDdl
