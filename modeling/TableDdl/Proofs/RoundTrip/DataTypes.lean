import TableDdl.DataType
import TableDdl.Proofs.RoundTrip.Clauses

/-!
# Codecs of data types
-/
namespace TableDdl

open Writes

/-- The text of a type and the names in it. -/
def DataType.written (t : DataType) : Written := ⟨t.layout.lexemes, t.looseNames, []⟩

namespace Codec

def length : Codec Grammar.length? (Exactly fun n => .plain (Layout.length n).lexemes) :=
  (integer.parenthesized.optional).restate (by
    rintro n t text
    cases n with
    | none => exact text
    | some n =>
      obtain ⟨_, ⟨_, rfl, rfl⟩, rfl⟩ := text
      rfl)

def unsigned : Codec Grammar.unsigned
    (Exactly fun b => .plain (Layout.onlyIf b (Layout.word "UNSIGNED")).lexemes) :=
  (flag (.word "UNSIGNED")).restate (by
    rintro b _ rfl
    cases b <;> rfl)

def zerofill : Codec Grammar.zerofill
    (Exactly fun b => .plain (Layout.onlyIf b (Layout.word "ZEROFILL")).lexemes) :=
  (flag (.word "ZEROFILL")).restate (by
    rintro b _ rfl
    cases b <;> rfl)

def charsetKeyword : Mark Grammar.charsetKeyword [.word "CHARACTER", .word "SET"] :=
  .left (Grammar.literal "CHARSET") ((Mark.word "CHARACTER").after (.word "SET"))

def charset : Codec Grammar.charset? (Exactly fun n => n.elim .nil fun n =>
    .plain [.word "CHARACTER", .word "SET"] ++ loose n) :=
  ((looseName.after charsetKeyword).restate (by
    rintro n _ ⟨_, rfl, rfl⟩
    rfl)).given

/-- The text of a collation. -/
def collation (name : String) : Written := .plain [.word "COLLATE"] ++ loose name

def collate : Codec Grammar.collate (Exactly collation) :=
  (looseName.after (.word "COLLATE")).restate (by
    rintro n _ ⟨_, rfl, rfl⟩
    rfl)

def integerType : Codec Grammar.integerType
    (Exactly fun t => (DataType.integer t).written) :=
  ((((map IntegerType.mk spelled).seq length).seq unsigned).seq zerofill).restate (by
    rintro _ _ ⟨_, z, _, _, ⟨_, u, _, _, ⟨_, n, _, _, ⟨k, rfl, rfl⟩, rfl, rfl, rfl⟩, rfl, rfl, rfl⟩,
      rfl, rfl, rfl⟩
    apply Written.ext <;>
      simp [DataType.written, DataType.layout, DataType.looseNames, Layout.sign, Spelled.words])

def spelling {α : Type} [Spelled α] (value : α) :
    Codec (Grammar.spelling value) (Exactly fun a => .plain ((Spelled.words a).map .word)) where
  edges := .phrase (Spelled.head value) (Spelled.tail value)
  coherent := (Spelled.words value).all Text.isPlainWord
  written plain _ read := by
    obtain ⟨_, -, rfl⟩ := Rule.map_matched_iff.1 read
    exact ⟨_, rfl, Spelled.readsBack_spelling (List.all_eq_true.1 plain)⟩

/-- The kinds whose first word is the same. -/
def doubleKind : Codec ((fun precision : Bool => if precision then .doublePrecision else .double)
      <$> (Grammar.literal "DOUBLE" *> (Grammar.literal "PRECISION").flag))
    (Exactly fun a : NumericKind => .plain ((Spelled.words a).map .word)) :=
  (map _ ((flag (.word "PRECISION")).after (.word "DOUBLE"))).restate (by
    rintro _ _ ⟨precision, ⟨_, rfl, rfl⟩, rfl⟩
    cases precision <;> rfl)

def numericKind : Codec Grammar.numericKind
    (Exactly fun a => .plain ((Spelled.words a).map .word)) :=
  ((spelling NumericKind.decimal).either ((spelling NumericKind.numeric).either
    ((spelling NumericKind.dec).either ((spelling NumericKind.fixed).either
      ((spelling NumericKind.float).either (doubleKind.either
        (spelling NumericKind.real))))))).restate (by
    rintro _ _ (rfl | rfl | rfl | rfl | rfl | rfl | rfl) <;> rfl)

def size : Codec Grammar.size (Exactly fun size =>
    .plain (Layout.precisionAndScale (size.map Prod.fst) (size.bind Prod.snd)).lexemes) :=
  (integer.pair (integer.after (.symbol ",")).optional).parenthesized.optional.restate (by
    rintro size t text
    cases size with
    | none => exact text
    | some size =>
      obtain ⟨p, s⟩ := size
      obtain ⟨_, ⟨_, ⟨_, _, rfl, scale, rfl⟩, rfl⟩, rfl⟩ := text
      cases s with
      | none =>
        obtain rfl := scale
        rfl
      | some s =>
        obtain ⟨_, rfl, rfl⟩ := scale
        rfl)

def numericType : Codec Grammar.numericType (Exactly fun t => (DataType.numeric t).written) :=
  ((((map _ numericKind).seq size).seq unsigned).seq zerofill).restate (by
    rintro _ _ ⟨_, z, _, _, ⟨_, u, _, _, ⟨_, n, _, _, ⟨k, rfl, rfl⟩, rfl, rfl, rfl⟩, rfl, rfl, rfl⟩,
      rfl, rfl, rfl⟩
    apply Written.ext <;>
      simp [DataType.written, DataType.layout, DataType.looseNames, Layout.sign, Spelled.words])

def temporalType : Codec Grammar.temporalType (Exactly fun t => (DataType.temporal t).written) :=
  ((map TemporalType.mk spelled).seq length).restate (by
    rintro _ _ ⟨_, n, _, _, ⟨k, rfl, rfl⟩, rfl, rfl, rfl⟩
    apply Written.ext <;>
      simp [DataType.written, DataType.layout, DataType.looseNames, Spelled.words])

def blobType : Codec Grammar.blobType (Exactly fun t => (DataType.blob t).written) :=
  ((map BlobType.mk spelled).seq length).restate (by
    rintro _ _ ⟨_, n, _, _, ⟨k, rfl, rfl⟩, rfl, rfl, rfl⟩
    apply Written.ext <;>
      simp [DataType.written, DataType.layout, DataType.looseNames, Spelled.words])

/-- The text of a type without its collation. A collation right after such a type is the type's
own, if it has none yet. -/
def TextBody (f : Option String → TextType) (t : Written) : Prop :=
  ∃ national kind length charset, f = TextType.mk national kind length charset ∧
    t = (DataType.text ⟨national, kind, length, charset, none⟩).written

def textBody : Codec (TextType.mk <$> (Grammar.literal "NATIONAL").flag <*> Grammar.spelled
    <*> Grammar.length? <*> Grammar.charset?) TextBody :=
  ((((map TextType.mk (flag (.word "NATIONAL"))).seq spelled).seq length).seq
    charset).restate (by
    rintro _ _ ⟨_, c, _, _, ⟨_, l, _, _, ⟨_, k, _, _, ⟨n, rfl, rfl⟩, rfl, rfl, rfl⟩, rfl, rfl, rfl⟩,
      rfl, rfl, rfl⟩
    refine ⟨n, k, l, c, rfl, ?_⟩
    apply Written.ext
    · cases n <;> simp [DataType.written, DataType.layout, Layout.charset, loose, Spelled.words]
    · simp [DataType.written, DataType.looseNames, loose]
    · simp [DataType.written, loose])

theorem text_written {x : TextType} {t : Written}
    (h : Applied TextBody (Exactly fun c => c.elim .nil collation) x t) :
    t = (DataType.text x).written := by
  obtain ⟨_, c, _, _, ⟨n, k, l, s, rfl, rfl⟩, rfl, rfl, rfl⟩ := h
  apply Written.ext <;>
    simp [DataType.written, DataType.layout, DataType.looseNames, Layout.charset, collation, loose]

def textType : (takes : Bool) → On (fun t => t.collation.isNone) takes Grammar.textType
    (Exactly fun t => (DataType.text t).written)
  | true =>
    .ofCodec ((textBody.seq (collate.given)).restate fun _ _ => text_written)
  | false => (On.given textBody collate (by
    rintro _ _ ⟨n, k, l, c, rfl, -⟩
    simp)).restate fun _ _ => text_written

def ChoiceBody (f : Option String → ChoiceType) (t : Written) : Prop :=
  ∃ isSet values charset, f = ChoiceType.mk isSet values charset ∧
    t = (DataType.choice ⟨isSet, values, charset, none⟩).written

def choices : Codec ((·.getD []) <$> (Grammar.parenthesized (Grammar.commaList Grammar.string)).optional)
    (Exactly fun values => .plain (Layout.choices values).lexemes) :=
  (map _ (string.commaList.parenthesized.optional)).restate (by
    rintro _ t ⟨o, text, rfl⟩
    cases o with
    | none => exact text
    | some values =>
      obtain ⟨_, ⟨_, ⟨some, us, all, rfl⟩, rfl⟩, rfl⟩ := text
      obtain rfl := forall₂_exactly.1 all
      cases values with
      | nil => exact absurd rfl some
      | cons first values =>
        have written : Written.separated [.symbol ","]
            ((first :: values).map fun s => .plain [.string s]) =
            ⟨[.string first] ++ values.flatMap fun s => [.symbol ","] ++ [.string s],
              (first :: values).flatMap fun _ => [], (first :: values).flatMap fun _ => []⟩ :=
          Written.separated_map [.symbol ","] (fun s => [Lexeme.string s]) _ _ first values
        rw [written]
        apply Written.ext
        · simp [Layout.choices, Layout.lexemes_joined_cons, List.flatMap_map]
        · simp
        · simp)

def choiceBody : Codec (ChoiceType.mk
    <$> ((Grammar.literal "ENUM").as false <|> (Grammar.literal "SET").as true)
    <*> (·.getD []) <$> (Grammar.parenthesized (Grammar.commaList Grammar.string)).optional
    <*> Grammar.charset?) ChoiceBody :=
  (((map ChoiceType.mk ((as (.word "ENUM") false).either (as (.word "SET") true))).seq
    choices).seq charset).restate (by
    rintro _ _ ⟨_, c, _, _, ⟨_, values, _, _, ⟨isSet, kind, rfl⟩, rfl, rfl, rfl⟩, rfl, rfl, rfl⟩
    refine ⟨isSet, values, c, rfl, ?_⟩
    obtain ⟨rfl, rfl⟩ | ⟨rfl, rfl⟩ := kind
    all_goals
      apply Written.ext <;>
        simp [DataType.written, DataType.layout, DataType.looseNames, Layout.charset, loose])

theorem choice_written {x : ChoiceType} {t : Written}
    (h : Applied ChoiceBody (Exactly fun c => c.elim .nil collation) x t) :
    t = (DataType.choice x).written := by
  obtain ⟨_, c, _, _, ⟨isSet, values, s, rfl, rfl⟩, rfl, rfl, rfl⟩ := h
  apply Written.ext <;>
    simp [DataType.written, DataType.layout, DataType.looseNames, Layout.charset, collation, loose]

def choiceType : (takes : Bool) → On (fun t => t.collation.isNone) takes Grammar.choiceType
    (Exactly fun t => (DataType.choice t).written)
  | true =>
    .ofCodec ((choiceBody.seq (collate.given)).restate fun _ _ =>
      choice_written)
  | false => (On.given choiceBody collate (by
    rintro _ _ ⟨isSet, values, c, rfl, -⟩
    simp)).restate fun _ _ => choice_written

end Codec

/-- Whether a collation right after the type would be its own. -/
def DataType.takesCollation : DataType → Bool
  | .text t => t.collation.isNone
  | .choice t => t.collation.isNone
  | _ => false

namespace Codec

/-- The codec of a type depends on whether the type takes a collation after it. -/
def dataType (takes : Bool) : On DataType.takesCollation takes Grammar.dataType
    (Exactly DataType.written) :=
  ((On.ofCodec (map DataType.bit (length.after (.word "BIT")))).either
    ((On.ofCodec (map DataType.integer integerType)).either
    ((On.ofCodec (map DataType.numeric numericType)).either
    ((On.ofCodec (map DataType.temporal temporalType)).either
    ((On.map DataType.text (textType takes)).either
    ((On.ofCodec (map DataType.blob blobType)).either
    ((On.map DataType.choice (choiceType takes)).either
    ((On.ofCodec (as (.word "JSON") DataType.json)).either
    ((On.ofCodec (map DataType.spatial spelled)).either
    (On.ofCodec (as (.left (Grammar.literal "BOOLEAN") (.word "BOOL"))
      DataType.bool))))))))))).restate (by
    rintro _ _ (⟨n, ⟨_, rfl, rfl⟩, rfl⟩ | ⟨_, rfl, rfl⟩ | ⟨_, rfl, rfl⟩ | ⟨_, rfl, rfl⟩ |
      ⟨_, rfl, rfl⟩ | ⟨_, rfl, rfl⟩ | ⟨_, rfl, rfl⟩ | ⟨rfl, rfl⟩ | ⟨kind, rfl, rfl⟩ |
      ⟨rfl, rfl⟩) <;> rfl)

theorem coherent_dataType (takes : Bool) : (dataType takes).coherent = true := by
  cases takes <;> decide +kernel

/-- A type that would take a collation was read where none follows. -/
theorem failsEarly_collate {calls : Nat} {c next : Cursor} {type : DataType}
    (scanned : Scanned Keywords.mysql c.rest)
    (read : Grammar.dataType.read calls c = .matched type next)
    (takes : type.takesCollation = true) : Grammar.collate.FailsEarly calls next := by
  have other {ι : Type} {r : DdlRule ι} (f : ι → DataType)
      (never : ∀ x, (f x).takesCollation = false)
      (matched : (f <$> r).read calls c = .matched type next) : False := by
    obtain ⟨x, -, rfl⟩ := Rule.map_matched_iff.1 matched
    rw [never] at takes
    cases takes
  have last {ι : Type} {r : DdlRule (Option String → ι)} {W : (Option String → ι) → Written → Prop}
      (f : ι → DataType) (F : Codec r W)
      (ok : F.coherent = true) (own : ∀ g t name, W g t → (f (g (some name))).takesCollation = false)
      (matched : (f <$> (r <*> Grammar.collate.optional)).read calls c = .matched type next) :
      Grammar.collate.FailsEarly calls next := by
    obtain ⟨_, seq, rfl⟩ := Rule.map_matched_iff.1 matched
    obtain ⟨g, o, mid, first, second, rfl⟩ := Rule.seq_matched_iff.1 seq
    obtain ⟨t, writes, -⟩ := F.written ok scanned first
    rcases Rule.optional_matched_iff.1 second with ⟨name, rfl, -⟩ | ⟨rfl, rfl, early⟩
    · rw [own g t name writes] at takes
      cases takes
    · exact early
  -- Of the types only texts and choices take a collation, and they have tried to read one.
  obtain ⟨s, mem, read⟩ := Rule.exists_of_read_oneOf read
  simp only [List.mem_cons, List.not_mem_nil, or_false] at mem
  rcases mem with rfl | rfl | rfl | rfl | rfl | rfl | rfl | rfl | rfl | rfl
  · exact (other _ (fun _ => rfl) read).elim
  · exact (other _ (fun _ => rfl) read).elim
  · exact (other _ (fun _ => rfl) read).elim
  · exact (other _ (fun _ => rfl) read).elim
  · apply last _ textBody (by decide +kernel) _ read
    rintro _ _ name ⟨national, kind, length, charset, rfl, -⟩
    rfl
  · exact (other _ (fun _ => rfl) read).elim
  · apply last _ choiceBody (by decide +kernel) _ read
    rintro _ _ name ⟨isSet, values, charset, rfl, -⟩
    rfl
  · exact (other _ (fun _ => rfl) read).elim
  · exact (other _ (fun _ => rfl) read).elim
  · exact (other _ (fun _ => rfl) read).elim

end Codec
end TableDdl
