import TableDdl.Proofs.Expression.Spacing
import TableDdl.Proofs.Grammar.Locality
import TableDdl.Proofs.Grammar.Terminals
import TableDdl.Proofs.RoundTrip.Enclosed
import TableDdl.Proofs.RoundTrip.Parsing
import TableDdl.Script

/-!
# Tokens of written expressions

A written expression has the tokens of the text that it was read from, in the same order, up to
the case of words, the quotes of names and strings, the second spelling of an operator and the
digits of numbers.
-/
namespace TableDdl

open Text

/-- How a token of an expression may come out when the expression is written. -/
inductive Token.Restates (t t' : Token) : Prop
  /-- A word that the rules take as such comes out in the spelling of the rules. -/
  | word : t.kind = .keyword → t'.kind = .keyword → t'.text ∈ expressionWords →
      sameWord t.text t'.text = true → Restates t t'
  | operator : t.kind = .operator → t'.kind = .operator →
      t'.text = t.text ∨ t.text = "!=" ∧ t'.text = "<>" → Restates t t'
  /-- A name comes out as the same name, in quotes or not; only time functions come out as
  keywords. -/
  | name {name : String} : Terminal.identifier.accept Keywords.mysql t = some name →
      t'.kind = .identifier ∨ t'.kind = .keyword ∧ timeFunctionNames.any (sameWord name) = true →
      Terminal.unquote t'.text = name → Restates t t'
  | string : t.kind = .string → t'.kind = .string →
      Terminal.inner t'.text = Terminal.inner t.text → Restates t t'
  | number {x : Number.Binary64} : t.kind = .number → t'.kind = .number →
      Number.Binary64.ofText? t.text.toList = some x →
      Number.Binary64.ofText? t'.text.toList = some x → Restates t t'

/-- The tokens of a text without a semicolon at the end. -/
def withoutSemicolon (ts : List Token) : List Token :=
  if ts.getLast?.any Token.isSemicolon then ts.dropLast else ts

namespace Terminal

/-- A terminal that may stand in an expression: any but the open end of a range. -/
def standsInExpression : Terminal → Bool
  | .literal text => !sameWord text "MAXVALUE"
  | _ => true

/-- No terminal of an expression takes the open end of a range. -/
theorem mem_expressionWords {t : Token} {text : String}
    (accepted : t.Accepted Keywords.mysql standsInExpression) (kind : t.kind = .keyword)
    (same : sameWord t.text text = true) (listed : text ∈ replayedWords) :
    text ∈ expressionWords := by
  rcases List.mem_cons.1 listed with rfl | listed
  · obtain ⟨terminal, x, own, accepted⟩ := accepted
    cases terminal with
    | literal literal =>
      obtain ⟨spells, -⟩ : t.spells literal = true ∧ literal = x := by
        simpa [accept] using accepted
      have word : sameWord t.text literal = true := by
        simpa [Token.spells, Token.isWord, kind] using spells
      rw [standsInExpression, ← sameWord_congr word, same] at own
      cases own
    | identifier =>
      have reserved : Keywords.mysql.isReserved t.text = true := by
        rw [isReserved_congr same]
        decide
      simp [accept, kind, reserved] at accepted
    | _ => simp [accept, kind] at accepted
  · exact listed

end Terminal

/-- The tokens that an expression takes are taken by terminals that may stand in one. -/
theorem Grammar.accepted_of_expression {calls : Nat} {c next : Cursor} {e : Expression}
    (read : Grammar.expression.read calls c = .matched e next) :
    c.Passes (Token.Accepted Keywords.mysql Terminal.standsInExpression) next := by
  have named : ∀ {β : Type} (name : Nonterminal β),
      name.rule.uses Terminal.standsInExpression = true := by
    intro β name
    cases name <;> decide
  exact Engine.accepted_of_run Nonterminal.rule named rfl read

namespace Renders

variable {t t' : Token} {l : Lexeme}

theorem isSemicolon_eq_false (h : Renders t l) : t.isSemicolon = false := by
  have of_kind (other : t.kind ≠ .operator) : t.isSemicolon = false := by
    simp [Token.isSemicolon, other]
  cases h with
  | word kind _ _ => exact of_kind (by simp [kind])
  | symbol _ same other => simp [Token.isSemicolon, same, other]
  | unequal _ text => simp [Token.isSemicolon, text]
  | name accepted => exact of_kind fun kind => by simp [Terminal.accept, kind] at accepted
  | head accepted _ => exact of_kind fun kind => by simp [Terminal.accept, kind] at accepted
  | string accepted => exact of_kind fun kind => by simp [Terminal.accept, kind] at accepted
  | number kind _ => exact of_kind (by simp [kind])

/-- The token of the written form restates the token that was read. -/
theorem restates (h : Renders t l) (accepted : t.Accepted Keywords.mysql Terminal.standsInExpression)
    (written : t'.anywhere = l.token) : t.Restates t' := by
  have kind' : t'.kind = l.kind := congrArg Token.kind written
  have text' : t'.text = String.ofList l.text := congrArg Token.text written
  cases h with
  | @word text kind same listed =>
    have known : ∀ word ∈ expressionWords, Keywords.mysql.isKeyword word = true := by
      decide +kernel
    have listed := Terminal.mem_expressionWords accepted kind same listed
    have whole : t'.text = text := by simpa [Lexeme.text] using text'
    refine .word kind ?_ (by rwa [whole]) (by rwa [whole])
    simp [kind', Lexeme.kind, Scan.wordKind, known text listed]
  | symbol kind same _ =>
    exact .operator kind kind' (.inl (by simpa [Lexeme.text, same] using text'))
  | unequal kind text => exact .operator kind kind' (.inr ⟨text, text'⟩)
  | @name name accepted =>
    have again : some (Terminal.unquote (String.ofList (Lexeme.name name).text)) = some name :=
      Terminal.accept_identifier_name
    exact .name accepted (.inl kind') (text' ▸ Option.some.inj again)
  -- A head may have been a quoted name; its bare form is a keyword.
  | @head name accepted time =>
    have known : ∀ word ∈ timeFunctionNames, Keywords.mysql.isKeyword word = true := by
      decide
    obtain ⟨word, mem, same⟩ := List.any_eq_true.1 time
    have keyword : Keywords.mysql.isKeyword name = true := by
      rw [isKeyword_congr same, known word mem]
    have bare := head?_of_isPlainWord (isPlainWord_of_timeFunction time)
    have whole : t'.text = name := by simpa [Lexeme.text] using text'
    refine .name accepted (.inr ⟨?_, time⟩) (by rw [whole, Terminal.unquote, if_neg bare])
    simp [kind', Lexeme.kind, Scan.wordKind, keyword]
  | @string content accepted =>
    obtain ⟨kind, rfl⟩ : t.kind = .string ∧ Terminal.inner t.text = content := by
      simpa [Terminal.accept] using accepted
    have again : some (Terminal.inner (String.ofList (Lexeme.string (Terminal.inner t.text)).text)) =
        some (Terminal.inner t.text) := Terminal.accept_string_string
    exact .string kind kind' (text' ▸ Option.some.inj again)
  | @number x kind value =>
    refine .number kind kind' value ?_
    rw [text', String.toList_ofList]
    exact Number.ofText?_write x

theorem restates_all {taken : List Token} {ls : List Lexeme} {ts' : List Token}
    (h : List.Forall₂ Renders taken ls)
    (accepted : ∀ t ∈ taken, t.Accepted Keywords.mysql Terminal.standsInExpression)
    (written : ts'.map Token.anywhere = tokensOf ls) : List.Forall₂ Token.Restates taken ts' := by
  induction h generalizing ts' with
  | nil =>
    obtain rfl : ts' = [] := by simpa using written
    exact .nil
  | cons first _ ih =>
    obtain ⟨t', rest, rfl, here, later⟩ := List.map_eq_cons_iff.1 written
    obtain ⟨own, others⟩ := List.forall_mem_cons.1 accepted
    exact .cons (first.restates own here) (ih others later)

theorem withoutSemicolon_eq {taken : List Token} {ls : List Lexeme}
    (h : List.Forall₂ Renders taken ls) : withoutSemicolon taken = taken := by
  have none_of : ∀ t ∈ taken, t.isSemicolon = false := by
    induction h with
    | nil => simp
    | cons first _ ih => exact List.forall_mem_cons.2 ⟨first.isSemicolon_eq_false, ih⟩
  have last : taken.getLast?.any Token.isSemicolon = false := by
    cases found : taken.getLast? with
    | none => rfl
    | some t => exact none_of t (List.mem_of_getLast? found)
  simp [withoutSemicolon, last]

end Renders

namespace Expression

variable {sql : String} {e : Expression}

/-- The tokens of an expression come out as its lexemes, which are read as the expression again;
after them there is at most a semicolon. -/
theorem renders_of_parse
    (parsed : Parser.parse Keywords.mysql EntryPoint.expression.rule sql = .ok e) :
    ∃ taken rest, tokenize Keywords.mysql sql = .ok (taken ++ rest) ∧
      (rest = [] ∨ ∃ t, rest = [t] ∧ t.kind = .operator ∧ t.text = ";") ∧
      Scanned Keywords.mysql taken ∧
      (∀ t ∈ taken, t.Accepted Keywords.mysql Terminal.standsInExpression) ∧
      List.Forall₂ Renders taken e.layout.lexemes ∧
      ((∀ head ∈ e.heads, HeadOk head) →
        Grammar.expression.Takes Parser.calls 0 0 e.layout.lexemes [] e) := by
  obtain ⟨ts, mid, cut, read, ended⟩ := Parser.read_of_parse parsed
  have scanned := scanned_of_tokenize cut
  obtain ⟨taken, _, rfl, -, whole, renders, takes⟩ :=
    (Replay.expression Parser.calls).written scanned.1 read
  have whole : ts = taken ++ mid.rest := whole
  obtain ⟨passed, between, accepted⟩ := Grammar.accepted_of_expression read
  obtain rfl : taken = passed := List.append_cancel_right (whole.symm.trans between)
  have ended : mid.rest = [] ∨ ∃ t, mid.rest = [t] ∧ t.kind = .operator ∧ t.text = ";" := by
    refine ended.imp_right ?_
    rintro ⟨t, ended, spells⟩
    refine ⟨t, ended, ?_⟩
    have mem : t ∈ ts := by simp [whole, ended]
    exact Token.operator_of_spells (scanned.1 t mem) (by decide) spells
  have finished : Over mid.rest := by
    rcases ended with ended | ⟨t, ended, semicolon⟩
    · simp [Over, ended]
    · simpa [Over, ended] using semicolon
  rw [whole] at cut scanned
  exact ⟨taken, mid.rest, cut, ended, scanned.of_append_left, accepted, renders,
    fun heads =>
      takes ⟨List.forall_mem_nil _, heads⟩ 0 [] (.ended finished fun _ next => by cases next)⟩

/-- What was read is parsed from its written form, unless a reference starts with a time function
that is not in upper case. -/
theorem reparse_write
    (parsed : Parser.parse Keywords.mysql EntryPoint.expression.rule sql = .ok e)
    (heads : ∀ head ∈ e.heads, HeadOk head) :
    Parser.parse Keywords.mysql EntryPoint.expression.rule e.layout.write = .ok e := by
  obtain ⟨_, _, -, -, scanned, -, renders, takes⟩ := renders_of_parse parsed
  exact Parser.parse_write e.spaced_layout (Renders.all_writable renders scanned.1)
    (Renders.tame renders scanned) (takes heads)

/-- The written form has the tokens of its lexemes. -/
theorem tokenize_write_of_parse
    (parsed : Parser.parse Keywords.mysql EntryPoint.expression.rule sql = .ok e) :
    ∃ ts, tokenize Keywords.mysql e.layout.write = .ok ts ∧
      ts.map Token.anywhere = tokensOf e.layout.lexemes := by
  obtain ⟨taken, _, -, -, scanned, -, renders, -⟩ := renders_of_parse parsed
  exact tokenize_write e.spaced_layout (Renders.all_writable renders scanned.1)
    (Renders.tame renders scanned)

/-- An expression is written with the tokens of the text it was read from, one for one. -/
theorem restates_of_parse
    (parsed : Parser.parse Keywords.mysql EntryPoint.expression.rule sql = .ok e) :
    ∃ ts ts', tokenize Keywords.mysql sql = .ok ts ∧
      tokenize Keywords.mysql e.layout.write = .ok ts' ∧
      List.Forall₂ Token.Restates (withoutSemicolon ts) ts' := by
  obtain ⟨taken, rest, cut, ended, -, accepted, renders, -⟩ := renders_of_parse parsed
  obtain ⟨ts', again, same⟩ := tokenize_write_of_parse parsed
  refine ⟨taken ++ rest, ts', cut, again, ?_⟩
  have body : withoutSemicolon (taken ++ rest) = taken := by
    rcases ended with rfl | ⟨t, rfl, kind, text⟩
    · rw [List.append_nil, Renders.withoutSemicolon_eq renders]
    · simp [withoutSemicolon, Token.isSemicolon, kind, text]
  rw [body]
  exact Renders.restates_all renders accepted same

/-- The second spelling of the operator, the quotes and the semicolon do not come out. -/
theorem restates_of_parse_unequal :
    let e : Expression := .anyOf [.allOf [.test (.concat [.sum (.product (.name ["a"]) []) []])
      (some (.compare .notEqual (.operand (.concat [.sum (.product (.string "x") []) []]))))]]
    ∃ ts ts', tokenize Keywords.mysql "`a` != \"x\";" = .ok ts ∧
      tokenize Keywords.mysql e.layout.write = .ok ts' ∧
      List.Forall₂ Token.Restates (withoutSemicolon ts) ts' :=
  restates_of_parse (Parser.eq_ok_of_toOption (by decide +kernel))

end Expression
end TableDdl
