import TableDdl.Proofs.RoundTrip.Atoms
import TableDdl.Proofs.RoundTrip.Enclosed
import TableDdl.Proofs.Statement.Names

/-!
# Codecs of clauses

Clauses of definitions are optional parts, settings and lists. What they write is said in terms
of the layouts of their parts.
-/
namespace TableDdl

open Writes

variable {α β : Type}

namespace Written

variable {o : Option α} {f : α → Written} {b : Bool} {t : Written}

@[simp] theorem lexemes_elim : (o.elim nil f).lexemes = o.elim [] fun x => (f x).lexemes := by
  cases o <;> rfl

@[simp] theorem looseNames_elim :
    (o.elim nil f).looseNames = o.elim [] fun x => (f x).looseNames := by
  cases o <;> rfl

@[simp] theorem heads_elim : (o.elim nil f).heads = o.elim [] fun x => (f x).heads := by
  cases o <;> rfl

@[simp] theorem lexemes_ite : (if b then t else nil).lexemes = if b then t.lexemes else [] := by
  cases b <;> rfl

@[simp] theorem looseNames_ite :
    (if b then t else nil).looseNames = if b then t.looseNames else [] := by
  cases b <;> rfl

@[simp] theorem heads_ite : (if b then t else nil).heads = if b then t.heads else [] := by
  cases b <;> rfl

end Written

@[simp] theorem Option.elim_nil (o : Option α) : (o.elim [] fun _ => ([] : List β)) = [] := by
  cases o <;> rfl

@[simp] theorem Option.elim_singleton (o : Option α) : (o.elim [] fun x => [x]) = o.toList := by
  cases o <;> rfl

namespace Codec

section Lists

variable {r : DdlRule α} {layout : α → Layout} {loose heads : α → List String}

/-- A list in which each item is written as its layout. -/
def commas (F : Codec r (Exactly fun x => ⟨(layout x).lexemes, loose x, heads x⟩)) :
    Codec (Grammar.commaList r) (fun xs t => xs ≠ [] ∧
      t = ⟨(Layout.commaSeparated (xs.map layout)).lexemes, xs.flatMap loose, xs.flatMap heads⟩) :=
  F.commaList.restate (by
    rintro xs _ ⟨some, us, all, rfl⟩
    refine ⟨some, ?_⟩
    obtain rfl := forall₂_exactly.1 all
    cases xs with
    | nil => exact absurd rfl some
    | cons x xs =>
      rw [Written.separated_map, Layout.commaSeparated, List.map_cons,
        Layout.lexemes_joined_cons, List.flatMap_map]
      rfl)

def commas0 (F : Codec r (Exactly fun x => ⟨(layout x).lexemes, loose x, heads x⟩)) :
    Codec (Grammar.commaList0 r) (Exactly fun xs =>
      ⟨(Layout.commaSeparated (xs.map layout)).lexemes, xs.flatMap loose, xs.flatMap heads⟩) :=
  (F.commas.optional.map fun o : Option (List α) => o.getD []).restate (by
    rintro _ t ⟨o, writes, rfl⟩
    cases o with
    | none => exact writes
    | some xs => exact writes.2)

def repetition (F : Codec r (Exactly fun x => ⟨(layout x).lexemes, loose x, heads x⟩)) :
    Codec r.many (Exactly fun xs =>
      ⟨xs.flatMap fun x => (layout x).lexemes, xs.flatMap loose, xs.flatMap heads⟩) :=
  F.many.restate (by
    rintro xs _ ⟨us, all, rfl⟩
    obtain rfl := forall₂_exactly.1 all
    rw [Written.concat_map]
    rfl)

end Lists

def name : Codec Grammar.identifier
    (Exactly fun n => ⟨(Layout.name n).lexemes, (fun _ => []) n, (fun _ => []) n⟩) := identifier

def names : Codec (Grammar.commaList Grammar.identifier) (fun ns t => ns ≠ [] ∧
    t = .plain (Layout.names ns).lexemes) :=
  name.commas.restate (by
    rintro ns _ ⟨some, rfl⟩
    refine ⟨some, ?_⟩
    apply Written.ext <;> simp [Layout.names])

def names0 : Codec (Grammar.commaList0 Grammar.identifier)
    (Exactly fun ns => .plain (Layout.names ns).lexemes) :=
  name.commas0.restate (by
    rintro ns _ rfl
    apply Written.ext <;> simp [Layout.names])

/-- Names in parentheses, of which there may be none. -/
def parenthesizedNames0 : Codec (Grammar.parenthesized (Grammar.commaList0 Grammar.identifier))
    (Exactly fun ns => .plain (Layout.parenthesized (Layout.names ns)).lexemes) :=
  names0.parenthesized.restate (by
    rintro ns _ ⟨_, ⟨_, rfl, rfl⟩, rfl⟩
    apply Written.ext <;> simp)

def parenthesizedNames : Codec (Grammar.parenthesized (Grammar.commaList Grammar.identifier))
    (Exactly fun ns => .plain (Layout.parenthesized (Layout.names ns)).lexemes) :=
  names.parenthesized.restate (by
    rintro ns _ ⟨_, ⟨_, ⟨-, rfl⟩, rfl⟩, rfl⟩
    apply Written.ext <;> simp)

def expression : Codec (Grammar.parenthesized Grammar.expression)
    (Exactly fun e => ⟨(Layout.parenthesized e.layout).lexemes, [], e.heads⟩) :=
  (Replay.codec Replay.expression).restate (by
    rintro e _ ⟨_, rfl, rfl⟩
    apply Written.ext <;> simp [Replay.enclosed, Expression.written])

def expressions : Codec (Grammar.parenthesized (Grammar.commaList Grammar.expression))
    (fun es t => es ≠ [] ∧
      t = ⟨(Layout.parenthesized (Layout.commaSeparated (es.map Expression.layout))).lexemes, [],
        es.flatMap Expression.heads⟩) :=
  (Replay.codec fun calls => (Replay.expression calls).commaList rfl).restate (by
    rintro es _ ⟨_, ⟨some, rfl⟩, rfl⟩
    refine ⟨some, ?_⟩
    apply Written.ext <;> simp [Replay.enclosed])

variable {r : DdlRule α} {text : α → Written}

/-- A part that may be left out. -/
def given (F : Codec r (Exactly text)) : Codec r.optional (Exactly fun o => o.elim .nil text) :=
  F.optional.restate (by
    rintro o t writes
    cases o <;> exact writes)

/-- A key, an equals sign and a value. -/
def setting {key : DdlRule β} {ls : List Lexeme} (m : Mark key ls) (F : Codec r (Exactly text)) :
    Codec (Grammar.setting key r) (Exactly fun x => .plain (ls ++ [.symbol "="]) ++ text x) :=
  (F.after (m.before (Mark.given (.symbol "=")))).restate (by
    rintro x _ ⟨_, rfl, rfl⟩
    rfl)

end Codec
end TableDdl
