import TableDdl.Expression.Grammar
import TableDdl.Grammar.Engine
import TableDdl.Token.Tokenize

/-!
# Parsing

A text is one phrase of the language, with an optional semicolon after it and nothing more. The
error of a text that is none tells the furthest token that no rule could take, and all that was
expected there.
-/
namespace TableDdl

/-- The rule and the end of the text after it. -/
def Rule.statement {N : Type → Type} {α : Type} (r : Rule N α) : Rule N α :=
  r <* (Grammar.literal ";").optional <* .atEnd

/-- The outcome of a rule on all of a token list, and the notes. -/
def Engine.outcome {σ α : Type} (e : Engine σ) (rule : DdlRule α) (tokens : List Token)
    (notes : σ) : Outcome α × σ :=
  e.run Nonterminal.rule (Nonterminal.callDepth e.maxDepth) rule.statement (.start tokens) notes

namespace Parser

/-- What stands at a token index: the place, and the token in single quotes. -/
def foundAt (text : String) (tokens : List Token) (pos : Nat) : Position × String :=
  match tokens[pos]? with
  | some t => (t.position, "'" ++ t.text ++ "'")
  | none => (.endOf text, "end of input")

def unexpected (text : String) (tokens : List Token) (f : Failure) : Error :=
  let (position, found) := foundAt text tokens f.pos
  .unexpected position (appendNew [] (f.expected.map Expected.text)) found

/-- The rules always end, so the last case does not arise. -/
def parseTokens {α : Type} (keywords : Keywords) (rule : DdlRule α) (text : String)
    (tokens : List Token) : Except Error α :=
  match (Engine.standard keywords).outcome rule tokens none with
  | (.matched value _, _) => .ok value
  | (.failed f, furthest) => .error (unexpected text tokens (furthest.getD f))
  | (.diverged, furthest) => .error (unexpected text tokens (furthest.getD ⟨0, []⟩))

def parse {α : Type} (keywords : Keywords) (rule : DdlRule α) (text : String) : Except Error α :=
  (tokenize keywords text).bind (parseTokens keywords rule text)

end Parser

end TableDdl
