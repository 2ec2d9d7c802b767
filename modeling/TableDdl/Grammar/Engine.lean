import TableDdl.Grammar.Rule

/-!
# Matching rules

The engine matches a rule at a cursor. Choice is ordered and looks one token ahead: a failure
further than that past the start is committed, and then no other alternative is tried and no
option or repetition hides it. Every failure of a token, of a conversion and of the nesting
limit is noted when it happens, also one that another alternative makes up for.
-/
namespace TableDdl

/-- The tokens from one on, with the index of that one and the depth of nesting. -/
structure Cursor where
  pos : Nat
  rest : List Token
  depth : Nat
deriving DecidableEq

def Cursor.start (tokens : List Token) : Cursor := ⟨0, tokens, 0⟩

inductive Outcome (α : Type)
  | matched (value : α) (next : Cursor)
  | failed (failure : Failure)
  /-- The rule goes on forever without taking a token. -/
  | diverged
deriving DecidableEq

/-- How rules are matched. Notes are collected in a value of type `σ`. -/
structure Engine (σ : Type) where
  keywords : Keywords
  /-- How far past the start a failure may be and still be made up for; without a bound no
  failure is committed. -/
  lookahead : Option Nat
  maxDepth : Nat
  note : σ → Failure → σ

/-- One attempt: the outcome, and the notes with those of the attempt. -/
abbrev Attempt (σ α : Type) := Cursor → σ → Outcome α × σ

namespace Engine

variable {σ α β : Type}

def fail (e : Engine σ) (expected : Expected) : Attempt σ α := fun c notes =>
  let f : Failure := ⟨c.pos, [expected]⟩
  (.failed f, e.note notes f)

/-- Whether a failure of an attempt from `start` is final. -/
def commits (e : Engine σ) (start : Nat) (f : Failure) : Bool :=
  e.lookahead.any fun k => start + k < f.pos

def token (e : Engine σ) (t : Terminal) : Attempt σ String := fun c notes =>
  match c.rest with
  | [] => e.fail t.expected c notes
  | first :: rest =>
    match t.accept e.keywords first with
    | some value => (.matched value ⟨c.pos + 1, rest, c.depth⟩, notes)
    | none => e.fail t.expected c notes

def atEnd (e : Engine σ) : Attempt σ Unit := fun c notes =>
  if c.rest.isEmpty then (.matched () c, notes) else e.fail .endOfInput c notes

def map (f : α → β) (a : Attempt σ α) : Attempt σ β := fun c notes =>
  match a c notes with
  | (.matched x next, notes) => (.matched (f x) next, notes)
  | (.failed failure, notes) => (.failed failure, notes)
  | (.diverged, notes) => (.diverged, notes)

/-- A refused value is a failure where the attempt began. -/
def convert (e : Engine σ) (f : α → Except String β) (a : Attempt σ α) : Attempt σ β :=
  fun c notes =>
  match a c notes with
  | (.matched x next, notes) =>
    match f x with
    | .ok y => (.matched y next, notes)
    | .error reason => e.fail (.invalid reason) c notes
  | (.failed failure, notes) => (.failed failure, notes)
  | (.diverged, notes) => (.diverged, notes)

def both (a : Attempt σ α) (b : Attempt σ β) : Attempt σ (α × β) := fun c notes =>
  match a c notes with
  | (.matched x next, notes) => map (fun y => (x, y)) b next notes
  | (.failed failure, notes) => (.failed failure, notes)
  | (.diverged, notes) => (.diverged, notes)

/-- Where both alternatives fail early, the deeper failure counts. -/
def either (e : Engine σ) (a b : Attempt σ α) : Attempt σ α := fun c notes =>
  match a c notes with
  | (.failed f, notes) =>
    if e.commits c.pos f then (.failed f, notes)
    else match b c notes with
      | (.failed g, notes) =>
        (.failed (if e.commits c.pos g then g else f.deeper g), notes)
      | answer => answer
  | answer => answer

def optional (e : Engine σ) (a : Attempt σ α) : Attempt σ (Option α) := fun c notes =>
  match a c notes with
  | (.matched x next, notes) => (.matched (some x) next, notes)
  | (.failed f, notes) =>
    if e.commits c.pos f then (.failed f, notes) else (.matched none c, notes)
  | (.diverged, notes) => (.diverged, notes)

/-- At most `bound` rounds. A match that takes no token ends the repetition and is dropped. -/
def manyUpTo (e : Engine σ) (a : Attempt σ α) : Nat → Attempt σ (List α)
  | 0 => fun _ notes => (.diverged, notes)
  | bound + 1 => fun c notes =>
    match a c notes with
    | (.matched x next, notes) =>
      if next.pos = c.pos then (.matched [] c, notes)
      else map (x :: ·) (manyUpTo e a bound) next notes
    | (.failed f, notes) =>
      if e.commits c.pos f then (.failed f, notes) else (.matched [] c, notes)
    | (.diverged, notes) => (.diverged, notes)

/-- Every round but the last takes a token. -/
def many (e : Engine σ) (a : Attempt σ α) : Attempt σ (List α) := fun c notes =>
  e.manyUpTo a (c.rest.length + 1) c notes

/-- A round that takes no token would come again without end. -/
def followersUpTo (e : Engine σ) (a : Attempt σ α) : Nat → Attempt σ (List α)
  | 0 => fun _ notes => (.diverged, notes)
  | bound + 1 => fun c notes =>
    match a c notes with
    | (.matched x next, notes) =>
      if next.pos = c.pos then (.diverged, notes)
      else map (x :: ·) (followersUpTo e a bound) next notes
    | (.failed f, notes) =>
      if e.commits c.pos f then (.failed f, notes) else (.matched [] c, notes)
    | (.diverged, notes) => (.diverged, notes)

/-- Separator and item are tried together, so a separator without an item is not taken. -/
def sepBy1 (e : Engine σ) (item : Attempt σ α) (separator : Attempt σ β) :
    Attempt σ (List α) := fun c notes =>
  match item c notes with
  | (.matched x next, notes) =>
    map (x :: ·) (e.followersUpTo (map Prod.snd (both separator item)) (next.rest.length + 1))
      next notes
  | (.failed failure, notes) => (.failed failure, notes)
  | (.diverged, notes) => (.diverged, notes)

def nested (e : Engine σ) (a : Attempt σ α) : Attempt σ α := fun c notes =>
  if e.maxDepth ≤ c.depth then e.fail (.invalid "nesting too deep") c notes
  else match a { c with depth := c.depth + 1 } notes with
    | (.matched x next, notes) => (.matched x { next with depth := c.depth }, notes)
    | answer => answer

/-- Matches a rule, with named rules matched by `call`. -/
def attempt {N : Type → Type} (e : Engine σ) (call : ∀ {β : Type}, N β → Attempt σ β)
    {α : Type} : Rule N α → Attempt σ α
  | .token t => e.token t
  | .atEnd => e.atEnd
  | .call name => call name
  | .map f r => map f (attempt e call r)
  | .convert f r => e.convert f (attempt e call r)
  | .both a b => both (attempt e call a) (attempt e call b)
  | .either a b => e.either (attempt e call a) (attempt e call b)
  | .optional r => e.optional (attempt e call r)
  | .many r => e.many (attempt e call r)
  | .sepBy1 item separator => e.sepBy1 (attempt e call item) (attempt e call separator)
  | .nested r => e.nested (attempt e call r)

/-- Matches a rule of a grammar, with at most `calls` named rules inside each other. -/
def run {N : Type → Type} (e : Engine σ) (grammar : ∀ {β : Type}, N β → Rule N β) :
    Nat → {α : Type} → Rule N α → Attempt σ α
  | 0, _, r => e.attempt (fun _ _ notes => (.diverged, notes)) r
  | calls + 1, _, r => e.attempt (fun name => run e grammar calls (grammar name)) r

/-- The engine of the parser: one token ahead, 32 levels deep, noting the furthest failure. -/
def standard (keywords : Keywords) : Engine (Option Failure) where
  keywords := keywords
  lookahead := some 1
  maxDepth := 32
  note := Failure.furthest

end Engine
end TableDdl
