import TableDdl.Grammar.Failure
import TableDdl.Number.Binary64
import TableDdl.Number.Decimal
import TableDdl.Token.Basic

/-!
# Rules

A rule describes token sequences together with the value of each. Rules are data: the engine
interprets them, and what holds of all rules is proved by induction on them. Recursion goes
through names; `N α` are the names of rules with values in `α`.
-/
namespace TableDdl

/-- What one token may be asked to be. -/
inductive Terminal
  | literal (text : String)
  | identifier
  | string
  | number
deriving DecidableEq

namespace Terminal

def expected : Terminal → Expected
  | .literal text => .literal text
  | .identifier => .tokenClass "identifier"
  | .string => .tokenClass "string"
  | .number => .tokenClass "number"

/-- A text without its first and last character. -/
def inner (text : String) : String := String.ofList text.toList.tail.dropLast

/-- A name without its backquotes. -/
def unquote (text : String) : String :=
  if text.toList.head? = some '\x60' then inner text else text

/-- The value of a token that fits. A keyword that is not reserved fits as a name. -/
def accept (keywords : Keywords) (t : Token) : Terminal → Option String
  | .literal text => if t.spells text then some text else none
  | .identifier =>
    match t.kind with
    | .identifier => some (unquote t.text)
    | .keyword => if keywords.isReserved t.text then none else some t.text
    | _ => none
  | .string => if t.kind = .string then some (inner t.text) else none
  | .number => if t.kind = .number then some t.text else none

end Terminal

inductive Rule (N : Type → Type) : Type → Type 1
  | token (t : Terminal) : Rule N String
  /-- No token is left. -/
  | atEnd : Rule N Unit
  | call {α : Type} (name : N α) : Rule N α
  | map {α β : Type} (f : α → β) (r : Rule N α) : Rule N β
  /-- The value is converted, or refused with a reason. -/
  | convert {α β : Type} (f : α → Except String β) (r : Rule N α) : Rule N β
  | both {α β : Type} (a : Rule N α) (b : Rule N β) : Rule N (α × β)
  /-- The second alternative is tried where the first fails early. -/
  | either {α : Type} (a b : Rule N α) : Rule N α
  | optional {α : Type} (r : Rule N α) : Rule N (Option α)
  | many {α : Type} (r : Rule N α) : Rule N (List α)
  | sepBy1 {α β : Type} (item : Rule N α) (separator : Rule N β) : Rule N (List α)
  /-- One level deeper in the nesting, which is limited. -/
  | nested {α : Type} (r : Rule N α) : Rule N α

namespace Rule

variable {N : Type → Type} {α β : Type}

instance : Functor (Rule N) where map := Rule.map

instance : Seq (Rule N) where seq f a := .map (fun p => p.1 p.2) (.both f (a ()))

instance : SeqLeft (Rule N) where seqLeft a b := .map Prod.fst (.both a (b ()))

instance : SeqRight (Rule N) where seqRight a b := .map Prod.snd (.both a (b ()))

instance : OrElse (Rule N α) where orElse a b := .either a (b ())

/-- The rule with a fixed value. -/
def as (value : β) (r : Rule N α) : Rule N β := r.map fun _ => value

/-- Whether the rule matched. -/
def flag (r : Rule N α) : Rule N Bool := r.optional.map Option.isSome

def oneOf (first : Rule N α) : List (Rule N α) → Rule N α
  | [] => first
  | r :: rs => .either first (oneOf r rs)

def sepBy (item : Rule N α) (separator : Rule N β) : Rule N (List α) :=
  (item.sepBy1 separator).optional.map (·.getD [])

end Rule

namespace Grammar

variable {N : Type → Type} {α β : Type}

/-- A word, in any letter case, or an operator. -/
def literal (text : String) : Rule N String := .token (.literal text)

/-- Words that follow each other. -/
def phrase (first : String) (others : List String) : Rule N String :=
  others.foldl (fun r word => r <* literal word) (literal first)

/-- A name without its backquotes. -/
def identifier : Rule N String := .token .identifier

/-- A string literal without its quotes. -/
def string : Rule N String := .token .string

/-- A finite number. -/
def number : Rule N Number.Binary64 :=
  .convert (fun text => match Number.Binary64.ofText? text.toList with
    | some x => .ok x
    | none => .error ("finite number (got " ++ text ++ ")")) (.token .number)

def counted (read : List Char → Option α) : Rule N α :=
  .convert (fun text => match read text.toList with
    | some n => .ok n
    | none => .error ("unsigned integer (got " ++ text ++ ")")) (.token .number)

/-- A length or count. -/
def integer : Rule N UInt32 := counted Number.natural32?

/-- The value of an option. -/
def long : Rule N UInt64 := counted Number.natural64?

def boolean : Rule N Bool := (literal "TRUE").as true <|> (literal "FALSE").as false

def parenthesized (r : Rule N α) : Rule N α := literal "(" *> r <* literal ")"

/-- One or more, separated by commas. -/
def commaList (r : Rule N α) : Rule N (List α) := r.sepBy1 (literal ",")

/-- Any number, separated by commas. -/
def commaList0 (r : Rule N α) : Rule N (List α) := r.sepBy (literal ",")

/-- A key and its value, with or without an equals sign between them. -/
def setting (key : Rule N α) (value : Rule N β) : Rule N β :=
  key <* (literal "=").optional *> value

end Grammar
end TableDdl
