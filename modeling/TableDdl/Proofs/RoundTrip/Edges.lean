import TableDdl.Proofs.Grammar.First
import TableDdl.Proofs.Layout.Lexemes

/-!
# Written texts and their edges

A written text is a list of lexemes, together with the names in it that need not be writable and
the names at the head of references. How two texts fit together depends on their edges alone:
which shapes the second opens with, and which terminals the first would still take.
-/
namespace TableDdl

/-- The text of a value, the loose names in it, and the heads of the references in it. -/
@[ext] structure Written where
  lexemes : List Lexeme
  looseNames : List String
  heads : List String

namespace Written

def nil : Written := ⟨[], [], []⟩

/-- A text without names that matter. -/
def plain (ls : List Lexeme) : Written := ⟨ls, [], []⟩

instance : Append Written where
  append a b := ⟨a.lexemes ++ b.lexemes, a.looseNames ++ b.looseNames, a.heads ++ b.heads⟩

variable {a b c : Written}

@[simp] theorem lexemes_append : (a ++ b).lexemes = a.lexemes ++ b.lexemes := rfl

@[simp] theorem looseNames_append : (a ++ b).looseNames = a.looseNames ++ b.looseNames := rfl

@[simp] theorem heads_append : (a ++ b).heads = a.heads ++ b.heads := rfl

@[simp] theorem lexemes_nil : nil.lexemes = [] := rfl

@[simp] theorem looseNames_nil : nil.looseNames = [] := rfl

@[simp] theorem heads_nil : nil.heads = [] := rfl

@[simp] theorem lexemes_plain (ls : List Lexeme) : (plain ls).lexemes = ls := rfl

@[simp] theorem looseNames_plain (ls : List Lexeme) : (plain ls).looseNames = [] := rfl

@[simp] theorem heads_plain (ls : List Lexeme) : (plain ls).heads = [] := rfl

@[simp] theorem append_nil (t : Written) : t ++ nil = t := by apply Written.ext <;> simp

@[simp] theorem nil_append (t : Written) : nil ++ t = t := rfl

theorem append_assoc (a b c : Written) : a ++ b ++ c = a ++ (b ++ c) := by
  apply Written.ext <;> simp

end Written

/-- A name that has a written form. -/
def NameOk (name : String) : Prop := name.toList ≠ [] ∧ '\x60' ∉ name.toList

instance : DecidablePred NameOk := fun name =>
  inferInstanceAs (Decidable (name.toList ≠ [] ∧ '\x60' ∉ name.toList))

/-- A time function that names no function in lower case: such a name is written without quotes,
and read back in upper case. -/
def HeadOk (head : String) : Prop :=
  ∀ word ∈ ["CURRENT_TIMESTAMP", "LOCALTIME", "LOCALTIMESTAMP"],
    Text.sameWord head word = true → head = word

instance : DecidablePred HeadOk := fun head =>
  inferInstanceAs (Decidable (∀ word ∈ ["CURRENT_TIMESTAMP", "LOCALTIME", "LOCALTIMESTAMP"],
    Text.sameWord head word = true → head = word))

/-- The tokens that lexemes are written as. -/
def tokensOf (ls : List Lexeme) : List Token := ls.map Lexeme.token

@[simp] theorem tokensOf_nil : tokensOf [] = [] := rfl

@[simp] theorem tokensOf_cons (l : Lexeme) (ls : List Lexeme) :
    tokensOf (l :: ls) = l.token :: tokensOf ls := rfl

@[simp] theorem tokensOf_append (ls ms : List Lexeme) :
    tokensOf (ls ++ ms) = tokensOf ls ++ tokensOf ms := by simp [tokensOf]

/-- No number with a sign stands right after an operand. -/
def Tame (ls : List Lexeme) : Prop :=
  ls.IsChain fun l l' => l.token.endsOperand Keywords.mysql = true → l'.token.isSigned = false

namespace Written

/-- Every lexeme is writable, loose names aside, and signs are no operators. -/
def Sound (t : Written) : Prop :=
  (∀ l ∈ t.lexemes, l.Writable ∨ ∃ name ∈ t.looseNames, l = .name name) ∧ Tame t.lexemes

/-- The names in the text that nothing is known about are as they have to be. -/
def Good (t : Written) : Prop := (∀ name ∈ t.looseNames, NameOk name) ∧ ∀ head ∈ t.heads, HeadOk head

theorem Sound.writable {t : Written} (sound : t.Sound) (good : t.Good) :
    ∀ l ∈ t.lexemes, l.Writable := by
  intro l hl
  rcases sound.1 l hl with writable | ⟨name, loose, rfl⟩
  · exact writable
  · exact good.1 name loose

theorem good_append {a b : Written} : (a ++ b).Good ↔ a.Good ∧ b.Good := by
  simp only [Good, looseNames_append, heads_append, List.forall_mem_append]
  exact and_and_and_comm

end Written

/-- What has to be known of a text to put it next to another one. -/
structure Edges where
  /-- The shapes of the first lexeme; none is that of an empty text. -/
  opens : List (Option Shape)
  /-- The terminals that the next token has to avoid. -/
  follow : List Terminal
  /-- Whether an operand may end at the last lexeme. -/
  ends : Bool

namespace Edges

/-- The edges of a text of the first kind and one of the second kind after it. -/
def andThen (a b : Edges) : Edges where
  opens := a.opens.flatMap fun
    | none => b.opens
    | some s => [some s]
  follow := b.follow ++ if b.opens.contains none then a.follow else []
  ends := b.ends || (b.opens.contains none && a.ends)

/-- Either text may stand there. -/
def orElse (a b : Edges) : Edges := ⟨a.opens ++ b.opens, a.follow ++ b.follow, a.ends || b.ends⟩

/-- A text of any of the kinds may stand there. -/
def any (kinds : List Edges) : Edges :=
  ⟨kinds.flatMap opens, kinds.flatMap follow, kinds.any ends⟩

/-- Whether any text of the second kind may stand after any of the first kind. -/
def joins (a b : Edges) : Bool :=
  b.opens.all fun
    | none => true
    | some s => a.follow.all (·.refuses s) && !(s == .number && a.ends)

/-- Whether the terminals refuse every text of the kind, and none of these is empty. -/
def refusedBy (E : Edges) (ts : List Terminal) : Bool :=
  E.opens.all fun
    | none => false
    | some s => ts.all (·.refuses s)

/-- Whether no text of the kind is empty. -/
def solid (E : Edges) : Bool := E.opens.all Option.isSome

theorem none_notMem_opens {E : Edges} (solid : E.solid = true) : none ∉ E.opens :=
  fun empty => by simpa using List.all_eq_true.1 solid _ empty

/-- All that is known of the first edges is known of the second. -/
structure Within (a b : Edges) : Prop where
  opens : ∀ s ∈ a.opens, s ∈ b.opens
  follow : ∀ t ∈ a.follow, t ∈ b.follow
  ends : a.ends = true → b.ends = true

instance (a b : Edges) : Decidable (a.Within b) :=
  decidable_of_iff ((∀ s ∈ a.opens, s ∈ b.opens) ∧ (∀ t ∈ a.follow, t ∈ b.follow) ∧
    (a.ends = true → b.ends = true))
    ⟨fun h => ⟨h.1, h.2.1, h.2.2⟩, fun h => ⟨h.opens, h.follow, h.ends⟩⟩

structure Fits (E : Edges) (ls : List Lexeme) : Prop where
  opens : ls.head?.map Lexeme.shape ∈ E.opens
  ends : E.ends = false → ∀ l ∈ ls.getLast?, l.token.endsOperand Keywords.mysql = false

theorem within_any {E : Edges} {kinds : List Edges} (mem : E ∈ kinds) : E.Within (any kinds) where
  opens _ hs := List.mem_flatMap.2 ⟨E, mem, hs⟩
  follow _ ht := List.mem_flatMap.2 ⟨E, mem, ht⟩
  ends h := List.any_eq_true.2 ⟨E, mem, h⟩

variable {a b : Edges} {ls ms : List Lexeme} {rest : List Token}

theorem Fits.append (ha : a.Fits ls) (hb : b.Fits ms) : (a.andThen b).Fits (ls ++ ms) := by
  constructor
  · cases ls with
    | nil => exact List.mem_flatMap.2 ⟨none, ha.opens, hb.opens⟩
    | cons l ls => exact List.mem_flatMap.2 ⟨some l.shape, ha.opens, by simp⟩
  · intro off l hl
    simp only [andThen, Bool.or_eq_false_iff, Bool.and_eq_false_iff] at off
    cases ms with
    | nil =>
      have empty : b.opens.contains none = true := by simpa using hb.opens
      exact ha.ends (off.2.resolve_left (by simpa using empty)) l (by simpa using hl)
    | cons m ms => exact hb.ends off.1 l (by simpa using hl)

theorem Fits.of_within (h : a.Fits ls) (within : a.Within b) : b.Fits ls := by
  refine ⟨within.opens _ h.opens, fun off => h.ends ?_⟩
  cases ends : a.ends with
  | false => rfl
  | true =>
    have := within.ends ends
    simp_all

theorem avoids_of_within (h : Avoids b.follow rest) (within : a.Within b) : Avoids a.follow rest :=
  fun t ht => h t (within.follow t ht)

theorem avoids_tokensOf {ts : List Terminal} {l : Lexeme} (writable : l.Writable)
    (refused : ts.all (·.refuses l.shape) = true) : Avoids ts (l.token :: rest) := by
  intro t ht first hfirst
  obtain rfl : l.token = first := by simpa using hfirst
  exact Terminal.accept_eq_none writable (List.all_eq_true.1 refused t ht)

/-- What comes after the first text: the second, or what comes after both. -/
theorem avoids_andThen (joins : a.joins b = true) (hb : b.Fits ms)
    (writable : ∀ l ∈ ms, l.Writable) (avoids : Avoids (a.andThen b).follow rest) :
    Avoids a.follow (tokensOf ms ++ rest) := by
  cases ms with
  | nil =>
    have empty : b.opens.contains none = true := by simpa using hb.opens
    have both := Avoids.append_iff.1 avoids
    rw [if_pos empty] at both
    exact both.2
  | cons m ms =>
    have shape := List.all_eq_true.1 joins _ hb.opens
    simp only [List.head?_cons, Option.map_some, Bool.and_eq_true] at shape
    exact avoids_tokensOf (writable m List.mem_cons_self) shape.1

theorem avoids_of_refusedBy {ts : List Terminal} (refused : b.refusedBy ts = true)
    (hb : b.Fits ms) (writable : ∀ l ∈ ms, l.Writable) : Avoids ts (tokensOf ms ++ rest) := by
  have shape := List.all_eq_true.1 refused _ hb.opens
  cases ms with
  | nil => simp at shape
  | cons m ms => exact avoids_tokensOf (writable m List.mem_cons_self) shape

theorem isSigned_of_shape {l : Lexeme} (h : l.shape ≠ .number) : l.token.isSigned = false := by
  cases l with
  | word w =>
    simp only [Token.isSigned, Lexeme.token, Lexeme.kind, Scan.wordKind]
    split <;> rfl
  | symbol s => rfl
  | name n => rfl
  | string s => rfl
  | integer n =>
    have digits : ∀ c ∈ Number.digitsOf n, c.isDigit = true := fun c hc =>
      Nat.isDigit_of_mem_toDigits (by decide) (by decide) hc
    simp only [Token.isSigned, Lexeme.token, Lexeme.kind, Lexeme.text, String.toList_ofList]
    cases written : Number.digitsOf n with
    | nil => rfl
    | cons c cs =>
      have digit := digits c (by simp [written])
      simp only [List.head?_cons, Option.any_some, beq_self_eq_true, Bool.true_and,
        Bool.or_eq_false_iff, beq_eq_false_iff_ne]
      constructor <;> (rintro rfl; revert digit; decide)
  | number x => exact absurd rfl h

theorem tame_append (joins : a.joins b = true) (ha : a.Fits ls) (hb : b.Fits ms) (tame : Tame ls)
    (tame' : Tame ms) : Tame (ls ++ ms) := by
  refine List.isChain_append.2 ⟨tame, tame', fun l hl m hm ends => ?_⟩
  have shape := List.all_eq_true.1 joins _ hb.opens
  obtain ⟨ms, rfl⟩ : ∃ ms', ms = m :: ms' := by
    cases ms with
    | nil => simp at hm
    | cons m' ms =>
      obtain rfl : m' = m := by simpa using hm
      exact ⟨ms, rfl⟩
  simp only [List.head?_cons, Option.map_some, Bool.and_eq_true, Bool.not_eq_true',
    Bool.and_eq_false_iff, beq_eq_false_iff_ne] at shape
  rcases shape.2 with different | off
  · exact isSigned_of_shape different
  · rw [ha.ends off l hl] at ends
    cases ends

end Edges
end TableDdl
