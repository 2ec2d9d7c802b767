import TableDdl.Proofs.Expression.Rewriting
import TableDdl.Proofs.Grammar.Gives
import TableDdl.Proofs.Keyword.Extension
import TableDdl.Proofs.Layout.Quoting
import TableDdl.Proofs.RoundTrip.Enclosed
import TableDdl.Proofs.RoundTrip.Terms
import TableDdl.Proofs.Token.Recased

/-!
# References in quotes

A reference is a path of names, with or without arguments, which are paths here. Where all its
names are in quotes, it is read as these names. Its layout has quotes only where they are needed,
and none around a time function at the head of a path; such a head is read in upper case again if
MySQL reserves it. Main statement: this is all that changes when a layout is read back.
-/
namespace TableDdl

open Text Scan

theorem Expression.layout_ofTerm (t : Term) : (Expression.ofTerm t).layout = t.layout := by
  simp [Expression.ofTerm, Operand.ofTerm, Expression.layout, Conjunction.layouts, Conjunction.layout,
    Condition.layouts, Condition.layout, Operand.layout, Summand.layouts, Summand.layout,
    Factor.layout, Multiplier.layouts, Addend.layouts, Predicate.layoutAfter, Layout.joined]

theorem Expression.heads_ofTerm (t : Term) : (Expression.ofTerm t).heads = t.heads := by
  simp [Expression.ofTerm, Operand.ofTerm, Expression.heads, Conjunction.headsAll, Conjunction.heads,
    Condition.headsAll, Condition.heads, Operand.heads, Summand.headsAll, Summand.heads,
    Factor.heads, Multiplier.headsAll, Addend.headsAll, Predicate.headsIn]

/-- A path of names, and the paths that are its arguments. -/
structure PathReference where
  path : List String
  arguments : Option (List (List String))

namespace PathReference

/-- All names have a written form, and no path is empty. -/
def Named (r : PathReference) : Prop :=
  OneOrMore NameOk r.path ∧ ∀ paths ∈ r.arguments, ∀ path ∈ paths, OneOrMore NameOk path

instance (r : PathReference) : Decidable r.Named :=
  inferInstanceAs (Decidable (OneOrMore NameOk r.path ∧
    ∀ paths ∈ r.arguments, ∀ path ∈ paths, OneOrMore NameOk path))

def expression (r : PathReference) : Expression :=
  .ofTerm (Grammar.referenceTerm r.path
    (r.arguments.map (List.map fun path => .ofTerm (.name path))))

def quoted (name : String) : List Char := '\x60' :: (name.toList ++ ['\x60'])

def quotedPath (path : List String) : List Char := ['.'].intercalate (path.map quoted)

/-- The reference with quotes around every name. -/
def quotedText (r : PathReference) : String :=
  String.ofList (quotedPath r.path ++ match r.arguments with
    | none => []
    | some paths => '(' :: ([',', ' '].intercalate (paths.map quotedPath) ++ [')']))

/-- A head as it is read from its layout. -/
def readHead (head : String) : String :=
  if ["CURRENT_TIMESTAMP", "LOCALTIME", "LOCALTIMESTAMP"].any (sameWord head) then upper head
  else head

/-- The reference with its heads as they are read from its layout. -/
def readBack (r : PathReference) : PathReference :=
  ⟨r.path.modifyHead readHead, r.arguments.map (List.map (List.modifyHead readHead))⟩

variable {head : String}

theorem mem_timeFunctionNames {word : String}
    (mem : word ∈ ["CURRENT_TIMESTAMP", "LOCALTIME", "LOCALTIMESTAMP"]) :
    word ∈ timeFunctionNames := by
  simp only [timeFunctionNames, List.mem_cons, List.not_mem_nil, or_false] at mem ⊢
  tauto

theorem readHead_eq_self_iff : readHead head = head ↔ HeadOk head := by
  have capitals : ∀ word ∈ ["CURRENT_TIMESTAMP", "LOCALTIME", "LOCALTIMESTAMP"],
      upper word = word := by decide
  simp only [readHead, HeadOk, List.any_eq_true]
  split
  · rename_i found
    obtain ⟨word, mem, same⟩ := found
    constructor
    · intro raised other mem' same'
      rw [← raised, upper_eq_of_sameWord same', capitals other mem']
    · intro ok
      rw [upper_eq_of_sameWord same, capitals word mem, ok word mem same]
  · rename_i none
    exact ⟨fun _ word mem same => absurd ⟨word, mem, same⟩ none, fun _ => rfl⟩

theorem headOk_readHead (head : String) : HeadOk (readHead head) := by
  rw [← readHead_eq_self_iff]
  have twice : upper (upper head) = upper head := upper_eq_of_sameWord (sameWord_upper head)
  simp only [readHead]
  split <;> simp_all [sameWord]

theorem nameOk_readHead (ok : NameOk head) : NameOk (readHead head) := by
  rw [readHead]
  split
  · rename_i found
    obtain ⟨word, mem, same⟩ := List.any_eq_true.1 found
    have plain : ∀ word ∈ ["CURRENT_TIMESTAMP", "LOCALTIME", "LOCALTIMESTAMP"],
      isPlainWord word = true := by decide
    apply nameOk_of_isPlainWord
    rw [isPlainWord_upper, isPlainWord_congr same, plain word mem]
  · exact ok

theorem named_readBack {r : PathReference} (named : r.Named) : r.readBack.Named := by
  have path {names : List String} (ok : OneOrMore NameOk names) :
      OneOrMore NameOk (names.modifyHead readHead) := by
    cases names with
    | nil => exact absurd rfl ok.1
    | cons head rest =>
      obtain ⟨here, later⟩ := List.forall_mem_cons.1 ok.2
      exact ⟨List.cons_ne_nil _ _, List.forall_mem_cons.2 ⟨nameOk_readHead here, later⟩⟩
  refine ⟨path named.1, ?_⟩
  simp only [readBack, Option.mem_def, Option.map_eq_some_iff]
  rintro _ ⟨paths, given, rfl⟩
  exact List.forall_mem_map.2 fun names mem => path (named.2 paths given names mem)

/-- The lexemes of a path, where the lexeme of the head may depend on it. -/
def pathLexemes (first : String → Lexeme) : List String → List Lexeme
  | [] => []
  | head :: rest => first head :: rest.flatMap fun part => [.symbol ".", .name part]

def pathsLexemes (first : String → Lexeme) : List (List String) → List Lexeme
  | [] => []
  | path :: paths =>
    pathLexemes first path ++ paths.flatMap fun other => .symbol "," :: pathLexemes first other

def lexemes (first : String → Lexeme) (r : PathReference) : List Lexeme :=
  pathLexemes first r.path ++ match r.arguments with
    | none => []
    | some paths => .symbol "(" :: (pathsLexemes first paths ++ [.symbol ")"])

/-- The lexeme of a head in a layout. -/
def headLexeme (head : String) : Lexeme :=
  if timeFunctionNames.any (sameWord head) then .word head else .name head

theorem lexemes_path (path : List String) :
    (Layout.path path).lexemes = pathLexemes headLexeme path := by
  cases path with
  | nil => rfl
  | cons head rest =>
    simp only [Layout.path, pathLexemes, headLexeme, Layout.lexemes_append, Layout.lexemes_flatMap]
    split <;> rfl

theorem lexemes_layout (r : PathReference) :
    r.expression.layout.lexemes = r.lexemes headLexeme := by
  have paths (all : List (List String)) :
      (Layout.commaSeparated (Expression.layouts (all.map fun path => .ofTerm (.name path)))).lexemes =
        pathsLexemes headLexeme all := by
    cases all with
    | nil => rfl
    | cons path all =>
      simp [Layout.commaSeparated, Expression.layouts_eq, Layout.lexemes_joined_cons, pathsLexemes,
        Expression.layout_ofTerm, Term.layout, lexemes_path, List.flatMap_map]
  obtain ⟨names, arguments⟩ := r
  cases arguments <;>
    simp [lexemes, expression, Grammar.referenceTerm, Expression.layout_ofTerm, Term.layout,
      lexemes_path, paths]

section Heads

variable {f g : String → Lexeme} {P : Lexeme → Lexeme → Prop}

theorem lexemes_readBack (r : PathReference) : r.readBack.lexemes f = r.lexemes (f ∘ readHead) := by
  have path (names : List String) :
      pathLexemes f (names.modifyHead readHead) = pathLexemes (f ∘ readHead) names := by
    cases names <;> rfl
  have paths (all : List (List String)) :
      pathsLexemes f (all.map (List.modifyHead readHead)) = pathsLexemes (f ∘ readHead) all := by
    cases all <;> simp [pathsLexemes, path, List.flatMap_map]
  obtain ⟨names, arguments⟩ := r
  cases arguments <;> simp [lexemes, readBack, path, paths]

/-- Two choices of lexemes for the heads are compared head by head. -/
theorem forall₂_lexemes (same : ∀ l, P l l) (heads : ∀ head, P (f head) (g head))
    (r : PathReference) : List.Forall₂ P (r.lexemes f) (r.lexemes g) := by
  have unchanged (ls : List Lexeme) : List.Forall₂ P ls ls := List.forall₂_same.2 fun l _ => same l
  have path (names : List String) : List.Forall₂ P (pathLexemes f names) (pathLexemes g names) := by
    cases names with
    | nil => exact .nil
    | cons head rest => exact .cons (heads head) (unchanged _)
  have paths (all : List (List String)) :
      List.Forall₂ P (pathsLexemes f all) (pathsLexemes g all) := by
    cases all with
    | nil => exact .nil
    | cons names others =>
      have each : List.Forall₂ (· = ·) others others := List.forall₂_refl others
      refine List.rel_append (path names) (List.rel_flatMap each ?_)
      rintro other _ rfl
      exact .cons (same _) (path other)
  obtain ⟨names, arguments⟩ := r
  cases arguments with
  | none => exact List.rel_append (path names) .nil
  | some all =>
    exact List.rel_append (path names) (.cons (same _) (List.rel_append (paths all) (unchanged _)))

end Heads

section Reading

open Grammar

variable {calls depth : Nat} {names : List String}

/-- The edges of a path: one more part could follow. -/
def pathEdges : Edges := ⟨[some .name], [.literal "."], true⟩

/-- The edges of a reference, which arguments could follow as well. -/
def edges : Edges := ⟨[some .name], [.literal "(", .literal "."], true⟩

theorem readsBack_identifier {name : String} (ok : NameOk name) :
    identifier.ReadsBack calls depth (.operand .name) name (.plain [.name name]) :=
  .token rfl (Written.sound_single (l := .name name) ok) Terminal.accept_identifier_name

theorem readsBack_parts (ok : ∀ name ∈ names, NameOk name) :
    (literal "." *> identifier).many.ReadsBack calls depth
      (((Edges.symbol ".").andThen (.operand .name)).repeated [.literal "."]) names
      (.plain (names.flatMap fun part => [.symbol ".", .name part])) := by
  have each : List.Forall₂ ((literal "." *> identifier).ReadsBack calls depth
      ((Edges.symbol ".").andThen (.operand .name))) names
      (names.map fun part => .plain [.symbol ".", .name part]) := by
    rw [List.forall₂_map_right_iff, List.forall₂_same]
    intro part mem
    have point : (literal ".").ReadsBack calls depth (.symbol ".") "." (.plain [.symbol "."]) :=
      .symbol (by decide)
    exact (point.both (readsBack_identifier (ok part mem)) (by decide)).map Prod.snd
  rw [← Written.concat_plain]
  exact .many rfl rfl (by decide) (by decide) each

theorem readsBack_path (ok : OneOrMore NameOk names) :
    ((fun head rest => referenceTerm (head :: rest)) <$> (identifier <|> timeFunctionName)
      <*> (literal "." *> identifier).many).ReadsBack calls depth pathEdges (referenceTerm names)
      (.plain (pathLexemes .name names)) := by
  cases names with
  | nil => exact absurd rfl ok.1
  | cons head rest =>
    obtain ⟨here, later⟩ := List.forall_mem_cons.1 ok.2
    have first : (identifier <|> timeFunctionName).ReadsBack calls depth (.operand .name) head
        (.plain [.name head]) := (readsBack_identifier here).left
    exact ((first.map _).seq (readsBack_parts later) (by decide)).within (by decide)

/-- What reads back reads back in parentheses, wherever these stand. -/
theorem readsBack_parenthesized {α : Type} {r : DdlRule α} {E : Edges} {x : α} {text : Written}
    (h : r.ReadsBack calls depth E x text) (joins : E.joins (.symbol ")") = true) :
    (parenthesized r).ReadsBack calls depth .enclosed x (Replay.enclosed text) := by
  have opening : (literal "(").ReadsBack calls depth (.symbol "(") "(" (.plain [.symbol "("]) :=
    .symbol (by decide)
  have closing : (literal ")").ReadsBack calls depth (.symbol ")") ")" (.plain [.symbol ")"]) :=
    .symbol (by decide)
  have inside := (opening.both h (Edges.joins_of_symbol (by decide) E)).map Prod.snd
  have whole := (inside.both closing (Edges.joins_symbol_of_symbol joins)).map Prod.fst
  refine whole.within (F := .enclosed) ⟨?_, ?_, fun _ => rfl⟩
  · simp [Edges.andThen, Edges.symbol, Edges.enclosed]
  · simp [Edges.andThen, Edges.symbol]

/-- A path in front of what may be its arguments is read as a term. -/
theorem readsBack_term {names : List String} {arguments : Option (List Expression)} {E : Edges}
    {text : Written} (ok : OneOrMore NameOk names)
    (h : (parenthesized (commaList0 Grammar.expression)).optional.ReadsBack (calls + 1) depth E arguments
      text)
    (joins : pathEdges.joins E = true) (within : (pathEdges.andThen E).Within edges) :
    term.ReadsBack (calls + 2) depth edges (referenceTerm names arguments)
      (.plain (pathLexemes .name names) ++ text) := by
  have reference := ((readsBack_path ok).seq h joins).within within
  have rule : termRule.ReadsBack (calls + 1) depth edges (referenceTerm names arguments)
      (.plain (pathLexemes .name names) ++ text) := by
    refine .right (.refusing reference.left ⟨rfl, rfl⟩ (by decide)) fun good pos rest => ?_
    have ahead : Avoids [.literal "SELECT"] (tokensOf (_ ++ text).lexemes ++ rest) :=
      Edges.avoids_of_refusedBy (by decide) reference.fits (reference.sound.writable good)
    exact ((failsHere_select ahead).map _).early
  exact rule.call

/-- The edges of a reference as an expression. -/
def expressionEdges : Edges := edges.avoiding expressionFollow

theorem readsBack_column (ok : OneOrMore NameOk names) (room : depth < 32) :
    Grammar.expression.ReadsBack (calls + 4) depth expressionEdges (.ofTerm (.name names))
      (.plain (pathLexemes .name names)) := by
  have column : term.ReadsBack (calls + 2) (depth + 1) edges (.name names)
      (.plain (pathLexemes .name names) ++ .nil) :=
    readsBack_term ok (.absent rfl rfl) (by decide) (by decide)
  rw [Written.append_nil] at column
  exact readsBack_ofTerm column (by decide) (by decide) room

theorem readsBack_arguments {paths : List (List String)} (ok : ∀ path ∈ paths, OneOrMore NameOk path)
    (room : depth < 32) :
    (parenthesized (commaList0 Grammar.expression)).ReadsBack (calls + 4) depth .enclosed
      (paths.map fun path => .ofTerm (.name path))
      (Replay.enclosed (.plain (pathsLexemes .name paths))) := by
  cases paths with
  | nil => exact readsBack_parenthesized readsBack_noItems (by decide)
  | cons path paths =>
    obtain ⟨here, later⟩ := List.forall_mem_cons.1 ok
    have each : List.Forall₂ (Grammar.expression.ReadsBack (calls + 4) depth expressionEdges)
        (paths.map fun path => .ofTerm (.name path))
        (paths.map fun path => .plain (pathLexemes .name path)) := by
      rw [List.forall₂_map_left_iff, List.forall₂_map_right_iff, List.forall₂_same]
      exact fun other mem => readsBack_column (later other mem) room
    have first : Grammar.expression.ReadsBack (calls + 4) depth expressionEdges
        (.ofTerm (.name path)) (.plain (pathLexemes .name path)) := readsBack_column here room
    have list := Rule.ReadsBack.commaList (by decide) (by decide) first each
    have text : Written.commas (.plain (pathLexemes .name path) ::
        paths.map fun path => .plain (pathLexemes .name path)) =
        .plain (pathsLexemes .name (path :: paths)) := by
      have tail := Written.concat_plain (fun other => .symbol "," :: pathLexemes .name other) paths
      rw [Written.commas, Written.separated, List.map_map]
      exact congrArg (Written.plain (pathLexemes .name path) ++ ·) tail
    rw [text] at list
    have items := list.given.map fun found : Option (List Expression) => found.getD []
    exact readsBack_parenthesized (r := commaList0 Grammar.expression) items (by decide)

theorem readsBack_expression {r : PathReference} (named : r.Named) :
    Grammar.expression.ReadsBack (calls + 7) 0 expressionEdges r.expression
      (.plain (r.lexemes .name)) := by
  obtain ⟨names, arguments⟩ := r
  cases arguments with
  | none =>
    have text : lexemes .name ⟨names, none⟩ = pathLexemes .name names := List.append_nil _
    rw [text]
    exact readsBack_column named.1 (by decide)
  | some paths =>
    have arguments : (parenthesized (commaList0 Grammar.expression)).ReadsBack (calls + 4) 1 .enclosed
        (paths.map fun path => .ofTerm (.name path))
        (Replay.enclosed (.plain (pathsLexemes .name paths))) :=
      readsBack_arguments (named.2 paths rfl) (by decide)
    have call : term.ReadsBack (calls + 5) 1 edges
        (referenceTerm names (some (paths.map fun path => .ofTerm (.name path))))
        (.plain (pathLexemes .name names) ++ Replay.enclosed (.plain (pathsLexemes .name paths))) :=
      readsBack_term named.1 arguments.given (by decide) (by decide)
    exact readsBack_ofTerm call (by decide) (by decide) (by decide)

end Reading

/-- The token of a lexeme where names are in quotes. -/
def quotedToken : Lexeme → Token
  | .name name => ⟨.identifier, String.ofList (quoted name), .start⟩
  | l => l.token

theorem intercalate_cons {α : Type} (separator xs : List α) (xss : List (List α)) :
    separator.intercalate (xs :: xss) = xs ++ xss.flatMap (separator ++ ·) := by
  induction xss generalizing xs with
  | nil => simp [List.intercalate_singleton]
  | cons ys yss ih =>
    rw [List.intercalate_cons_cons, ih, List.flatMap_cons, List.append_assoc, List.append_assoc]

/-- Wherever the text stands, it is cut into such tokens. -/
def IsCutInto (cs : List Char) (us : List Token) : Prop :=
  ∀ signed p rest, ∃ ts signed' p', ts.map Token.anywhere = us ∧
    tokensFrom Keywords.mysql signed p (cs ++ rest) =
      (tokensFrom Keywords.mysql signed' p' rest).map (ts ++ ·)

namespace IsCutInto

variable {cs ds : List Char} {us vs : List Token}

theorem nil : IsCutInto [] [] := fun signed p rest =>
  ⟨[], signed, p, rfl, by
    rw [List.nil_append]
    cases tokensFrom Keywords.mysql signed p rest <;> rfl⟩

theorem append (h : IsCutInto cs us) (h' : IsCutInto ds vs) : IsCutInto (cs ++ ds) (us ++ vs) := by
  intro signed p rest
  obtain ⟨ts, signed', p', same, cut⟩ := h signed p (ds ++ rest)
  obtain ⟨ts', signed'', p'', same', cut'⟩ := h' signed' p' rest
  refine ⟨ts ++ ts', signed'', p'', by rw [List.map_append, same, same'], ?_⟩
  rw [List.append_assoc, cut, cut']
  cases tokensFrom Keywords.mysql signed'' p'' rest <;> simp [Except.map]

theorem of_scan {kind : Kind} (found : ∀ signed rest, scan Keywords.mysql signed (cs ++ rest) =
    some ⟨some kind, cs, rest⟩) : IsCutInto cs [⟨kind, String.ofList cs, .start⟩] := by
  intro signed p rest
  have cut := tokensFrom_of_scan_eq_some (p := p) (found signed rest)
  exact ⟨[⟨kind, String.ofList cs, p⟩], _, _, rfl, cut⟩

theorem flatMap {ι : Type} {xs : List ι} {f : ι → List Char} {g : ι → List Token}
    (h : ∀ x ∈ xs, IsCutInto (f x) (g x)) : IsCutInto (xs.flatMap f) (xs.flatMap g) := by
  induction xs with
  | nil => exact nil
  | cons x xs ih =>
    obtain ⟨here, later⟩ := List.forall_mem_cons.1 h
    exact here.append (ih later)

/-- A mark, where the text after it does not run into it. -/
theorem mark {c : Char} (mem : c ∈ singleOperators)
    (stop : ∀ rest, ∀ d ∈ (cs ++ rest).head?, d ∈ [' ', '(', ')', ','] ∨ c = '(' ∨ c = ',' ∨
      c = '.' ∧ (d = '\x60' ∨ isWordStart d = true))
    (h : IsCutInto cs us) : IsCutInto (c :: cs) (⟨.operator, String.ofList [c], .start⟩ :: us) := by
  intro signed p rest
  have found : scan Keywords.mysql signed (c :: (cs ++ rest)) =
      some ⟨some .operator, [c], cs ++ rest⟩ := scan_single mem (stop rest)
  have cut := tokensFrom_of_scan_eq_some (p := p) found
  let t : Token := ⟨.operator, String.ofList [c], p⟩
  obtain ⟨ts, signed', p', same, cut'⟩ := h (!t.endsOperand Keywords.mysql) (p.after [c]) rest
  refine ⟨t :: ts, signed', p', congrArg (t.anywhere :: ·) same, ?_⟩
  simp only [t] at cut'
  simp only [List.cons_append, cut, cut']
  cases tokensFrom Keywords.mysql signed' p' rest <;> rfl

theorem space (h : IsCutInto cs us) : IsCutInto (' ' :: cs) us := by
  intro signed p rest
  obtain ⟨ts, signed', p', same, cut⟩ := h signed (p.next ' ') rest
  exact ⟨ts, signed', p', same, (tokensFrom_space (by decide)).trans cut⟩

theorem quoted {name : String} (ok : NameOk name) :
    IsCutInto (quoted name) [quotedToken (.name name)] :=
  of_scan fun signed rest => by simpa [PathReference.quoted] using scan_quotedName ok.1 ok.2

theorem path {names : List String} (ok : OneOrMore NameOk names) :
    IsCutInto (quotedPath names) ((pathLexemes .name names).map quotedToken) := by
  cases names with
  | nil => exact absurd rfl ok.1
  | cons head rest =>
    obtain ⟨here, later⟩ := List.forall_mem_cons.1 ok.2
    have parts : IsCutInto (rest.flatMap fun part => '.' :: PathReference.quoted part)
        (rest.flatMap fun part => [quotedToken (.symbol "."), quotedToken (.name part)]) :=
      flatMap fun part mem => mark (by decide)
        (fun _ d hd => .inr (.inr (.inr ⟨rfl, .inl (Option.some.inj hd).symm⟩)))
        (quoted (later part mem))
    simpa [quotedPath, intercalate_cons, pathLexemes, List.flatMap_map, List.map_flatMap] using
      (quoted here).append parts

theorem paths {all : List (List String)} (ok : ∀ path ∈ all, OneOrMore NameOk path) :
    IsCutInto ([',', ' '].intercalate (all.map quotedPath))
      ((pathsLexemes .name all).map quotedToken) := by
  cases all with
  | nil => exact nil
  | cons names others =>
    obtain ⟨here, later⟩ := List.forall_mem_cons.1 ok
    have parts : IsCutInto (others.flatMap fun other => ',' :: ' ' :: quotedPath other)
        (others.flatMap fun other =>
          quotedToken (.symbol ",") :: (pathLexemes .name other).map quotedToken) :=
      flatMap fun other mem => mark (by decide) (fun _ _ _ => .inr (.inr (.inl rfl)))
        (space (path (later other mem)))
    simpa [intercalate_cons, pathsLexemes, List.flatMap_map, List.map_flatMap] using
      (path here).append parts

/-- A text that starts with such a text is cut there. -/
theorem tokenize {rest : List Char} (h : IsCutInto cs us)
    (last : ∀ signed p, ∃ ts, tokensFrom Keywords.mysql signed p rest = .ok ts ∧
      ts.map Token.anywhere = vs) :
    ∃ ts, tokenize Keywords.mysql (String.ofList (cs ++ rest)) = .ok ts ∧
      ts.map Token.anywhere = us ++ vs := by
  obtain ⟨ts, signed, p, same, cut⟩ := h true .start rest
  obtain ⟨ts', cut', same'⟩ := last signed p
  refine ⟨ts ++ ts', ?_, by rw [List.map_append, same, same']⟩
  rw [TableDdl.tokenize, String.toList_ofList, cut, cut']
  rfl

end IsCutInto

variable {r : PathReference}

theorem tokenize_quotedText (named : r.Named) :
    ∃ ts, tokenize Keywords.mysql r.quotedText = .ok ts ∧
      ts.map Token.anywhere = (r.lexemes .name).map quotedToken := by
  obtain ⟨names, arguments⟩ := r
  have path := IsCutInto.path named.1
  cases arguments with
  | none =>
    simpa [quotedText, lexemes] using path.tokenize fun _ _ => ⟨[], tokensFrom_nil _ _ _, rfl⟩
  | some all =>
    have opened := path.append (IsCutInto.mark (c := '(') (by decide) (fun _ _ _ => .inr (.inl rfl))
      (IsCutInto.paths (named.2 all rfl)))
    have closed (signed : Bool) (p : Position) :
        ∃ ts, tokensFrom Keywords.mysql signed p [')'] = .ok ts ∧
          ts.map Token.anywhere = [quotedToken (.symbol ")")] := by
      have found : scan Keywords.mysql signed [')'] = some ⟨some .operator, [')'], []⟩ :=
        scan_single (by decide) nofun
      have cut := tokensFrom_of_scan_eq_some (p := p) found
      refine ⟨[⟨.operator, ")", p⟩], cut.trans ?_, rfl⟩
      simp only [tokensFrom_nil]
      rfl
    have whole := opened.tokenize closed
    have text : String.ofList ((quotedPath names ++ '(' :: [',', ' '].intercalate
        (all.map quotedPath)) ++ [')']) = quotedText ⟨names, some all⟩ := by simp [quotedText]
    rw [text] at whole
    have opening : quotedToken (.symbol "(") = ⟨.operator, "(", .start⟩ := rfl
    simpa [lexemes, opening] using whole

/-- No terminal of the rules tells whether a name has quotes that it does not need. -/
theorem accept_quotedToken {terminal : Terminal} (known : terminal.isKnown = true) (l : Lexeme) :
    terminal.accept Keywords.mysql (quotedToken l) = terminal.accept Keywords.mysql l.token := by
  cases l with
  | name name =>
    cases terminal with
    | literal text =>
      have own : Keywords.mysql.isKeyword text = true ∨ isPlainWord text = false := by
        rcases Bool.or_eq_true_iff.1 known with keyword | odd
        · exact .inl keyword
        · refine .inr (Bool.eq_false_iff.2 fun plain => ?_)
          obtain ⟨c, cs, whole, start, -⟩ := isPlainWord_iff.1 plain
          simp [startsWord, whole, isWordStart_toUpper (isWordStart_of_isPlainStart start)] at odd
      rw [Terminal.accept_literal_name own]
      simp [Terminal.accept, quotedToken, quoted, Token.spells, Token.isWord]
    | identifier =>
      rw [Terminal.accept_identifier_name]
      simp [Terminal.accept, quotedToken, quoted, Terminal.unquote, Terminal.inner]
    | _ => simp [Terminal.accept, quotedToken, Lexeme.token, Lexeme.kind]
  | _ => rfl

theorem parse_quotedText (named : r.Named) :
    Parser.parse Keywords.mysql EntryPoint.expression.rule r.quotedText = .ok r.expression := by
  obtain ⟨ts, cut, same⟩ := tokenize_quotedText named
  have takes : Grammar.expression.Takes Parser.calls 0 0 (r.lexemes .name) [] r.expression :=
    (readsBack_expression named).takes ⟨nofun, nofun⟩ 0 [] (Avoids.nil _)
  have alike : List.Forall₂ (fun t u => ∀ terminal : Terminal, terminal.isKnown = true →
      terminal.accept Keywords.mysql u = terminal.accept Keywords.mysql t)
      (tokensOf (r.lexemes .name)) ((r.lexemes .name).map quotedToken) := by
    rw [tokensOf, List.forall₂_map_left_iff, List.forall₂_map_right_iff, List.forall₂_same]
    exact fun l _ terminal known => accept_quotedToken known l
  have anywhere : ts.map Token.anywhere = ((r.lexemes .name).map quotedToken).map Token.anywhere := by
    rw [same, List.map_map]
    refine List.map_congr_left fun l _ => ?_
    cases l <;> simp only [Function.comp_apply, quotedToken, Token.anywhere, Lexeme.token]
  have bare : Parser.parseTokens Keywords.mysql EntryPoint.expression.rule r.quotedText
      (tokensOf (r.lexemes .name)) = .ok r.expression := Parser.parseTokens_of_takes takes
  have inQuotes : Parser.parseTokens Keywords.mysql EntryPoint.expression.rule r.quotedText
      ((r.lexemes .name).map quotedToken) = .ok r.expression :=
    (Parser.parseTokens_indistinct Nonterminal.uses_isKnown EntryPoint.expression.uses_isKnown
      alike).2 bare
  rw [Parser.parse, cut, Except.bind]
  exact (Parser.parseTokens_anywhere anywhere).2 inQuotes

/-- No terminal tells in which case a time function stands that MySQL reserves. -/
theorem accept_headLexeme (head : String) (terminal : Terminal) :
    terminal.accept Keywords.mysql (headLexeme (readHead head)).token =
      terminal.accept Keywords.mysql (headLexeme head).token := by
  by_cases raised : ["CURRENT_TIMESTAMP", "LOCALTIME", "LOCALTIMESTAMP"].any (sameWord head) = true
  · obtain ⟨word, mem, same⟩ := List.any_eq_true.1 raised
    have reserved : ∀ word ∈ ["CURRENT_TIMESTAMP", "LOCALTIME", "LOCALTIMESTAMP"],
        isPlainWord word = true ∧ Keywords.mysql.isReserved word = true := by decide
    obtain ⟨plain, taken⟩ := reserved word mem
    rw [← isPlainWord_congr same] at plain
    rw [← isReserved_congr same] at taken
    have same' : sameWord (upper head) head = true := sameWord_upper head
    have time : timeFunctionNames.any (sameWord head) = true :=
      List.any_eq_true.2 ⟨word, mem_timeFunctionNames mem, same⟩
    have time' : timeFunctionNames.any (sameWord (upper head)) = true :=
      List.any_eq_true.2 ⟨word, mem_timeFunctionNames mem, (sameWord_congr same' word).trans same⟩
    rw [readHead, if_pos raised, headLexeme, headLexeme, if_pos time, if_pos time']
    have plain' : isPlainWord (upper head) = true := (isPlainWord_congr same').trans plain
    cases terminal with
    | literal literal =>
      rw [Terminal.accept_literal_word plain, Terminal.accept_literal_word plain',
        sameWord_congr same']
    | identifier =>
      rw [Terminal.accept_identifier_word plain, Terminal.accept_identifier_word plain',
        isReserved_congr same', if_pos taken, if_pos taken]
    | _ => simp [Terminal.accept, Lexeme.token, Renders.kind_word]
  · rw [readHead, if_neg raised]

theorem heads_expression (r : PathReference) :
    r.expression.heads = r.path.take 1 ++ (r.arguments.getD []).flatMap (List.take 1) := by
  obtain ⟨names, arguments⟩ := r
  cases arguments <;>
    simp [expression, Grammar.referenceTerm, Expression.heads_ofTerm, Term.heads,
      Expression.headsAll_eq, List.flatMap_map]

theorem heads_readBack (r : PathReference) :
    r.readBack.expression.heads = r.expression.heads.map readHead := by
  have path (names : List String) :
      (names.modifyHead readHead).take 1 = (names.take 1).map readHead := by
    cases names <;> rfl
  obtain ⟨names, arguments⟩ := r
  cases arguments <;>
    simp [heads_expression, readBack, path, List.flatMap_map, List.map_flatMap]

/-- Only time functions that are not in upper case are read back as other heads. -/
theorem readBack_expression_eq_iff :
    r.readBack.expression = r.expression ↔ ∀ head ∈ r.expression.heads, HeadOk head := by
  constructor
  · intro same head mem
    have fixed : r.expression.heads.map readHead = r.expression.heads.map id := by
      rw [← heads_readBack, same, List.map_id]
    exact readHead_eq_self_iff.1 (List.map_inj_left.1 fixed head mem)
  · intro ok
    have path {names : List String} (ok : ∀ head ∈ names.take 1, HeadOk head) :
        names.modifyHead readHead = names := by
      cases names with
      | nil => rfl
      | cons head rest =>
        have same : readHead head = head := readHead_eq_self_iff.2 (ok head List.mem_cons_self)
        rw [List.modifyHead_cons, same]
    obtain ⟨names, arguments⟩ := r
    rw [heads_expression, List.forall_mem_append] at ok
    refine congrArg expression ?_
    rw [readBack, path ok.1]
    cases arguments with
    | none => rfl
    | some paths =>
      have each : paths.map (List.modifyHead readHead) = paths.map id :=
        List.map_inj_left.2 fun names mem =>
          path fun head here => ok.2 head (List.mem_flatMap.2 ⟨names, mem, here⟩)
      rw [Option.map_some, each, List.map_id]

/-- The lexemes of a reference are read alike before and after the case of its heads changes. -/
theorem parseTokens_lexemes_readBack {α : Type} {rule : DdlRule α} {x : α} (text : String) :
    Parser.parseTokens Keywords.mysql rule text (tokensOf (r.readBack.lexemes headLexeme)) = .ok x ↔
      Parser.parseTokens Keywords.mysql rule text (tokensOf (r.lexemes headLexeme)) = .ok x := by
  have heads : List.Forall₂ (fun l l' : Lexeme => ∀ terminal : Terminal,
      terminal.accept Keywords.mysql l'.token = terminal.accept Keywords.mysql l.token)
      (r.lexemes headLexeme) (r.lexemes (headLexeme ∘ readHead)) := by
    refine forall₂_lexemes (fun _ _ => rfl) (fun head terminal => ?_) r
    rw [Function.comp_apply]
    exact accept_headLexeme head terminal
  refine Parser.parseTokens_indistinct (fun name => Rule.uses_true name.rule) (Rule.uses_true _) ?_
  rw [lexemes_readBack, tokensOf, tokensOf, List.forall₂_map_left_iff, List.forall₂_map_right_iff]
  exact heads.imp fun _ _ same terminal _ => same terminal

theorem parse_write_expression (named : r.Named) :
    Parser.parse Keywords.mysql EntryPoint.expression.rule r.expression.layout.write =
      .ok r.readBack.expression := by
  have heads : ∀ head ∈ r.readBack.expression.heads, HeadOk head := by
    rw [heads_readBack]
    exact List.forall_mem_map.2 fun head _ => headOk_readHead head
  obtain ⟨ts, cut, same⟩ := Expression.tokenize_write_of_parse (parse_quotedText named)
  obtain ⟨_, _, -, -, -, -, -, takes⟩ :=
    Expression.renders_of_parse (parse_quotedText (named_readBack named))
  have raised : Parser.parseTokens Keywords.mysql EntryPoint.expression.rule
      r.expression.layout.write (tokensOf (r.readBack.lexemes headLexeme)) =
        .ok r.readBack.expression := by
    rw [← lexemes_layout]
    exact Parser.parseTokens_of_takes (takes heads)
  have anywhere : ts.map Token.anywhere =
      (tokensOf (r.lexemes headLexeme)).map Token.anywhere := by
    rw [← lexemes_layout, ← same, List.map_map]
    rfl
  rw [Parser.parse, cut, Except.bind]
  exact (Parser.parseTokens_anywhere anywhere).2 ((parseTokens_lexemes_readBack _).1 raised)

/-- A reference in quotes is read as its names. What is written of it is read as the same
reference, but for the time functions at its heads, which come back in upper case. -/
theorem parse_quoted (named : r.Named) :
    Parser.parse Keywords.mysql EntryPoint.expression.rule r.quotedText = .ok r.expression ∧
      Parser.parse Keywords.mysql EntryPoint.expression.rule r.expression.layout.write =
        .ok r.readBack.expression ∧
      (r.readBack.expression = r.expression ↔ ∀ head ∈ r.expression.heads, HeadOk head) :=
  ⟨parse_quotedText named, parse_write_expression named, readBack_expression_eq_iff⟩

/-- Quotes are kept where a name is a keyword or no word, and a time function needs none. -/
theorem parse_quoted_select :
    let r : PathReference := ⟨["Select", "a b"], some [["key"], ["Now", "x"]]⟩
    r.quotedText = "\x60Select\x60.\x60a b\x60(\x60key\x60, \x60Now\x60.\x60x\x60)" ∧
    Parser.parse Keywords.mysql EntryPoint.expression.rule r.quotedText = .ok r.expression ∧
    r.expression.layout.write = "\x60Select\x60.\x60a b\x60(\x60key\x60, Now.x)" ∧
    Parser.parse Keywords.mysql EntryPoint.expression.rule r.expression.layout.write =
      .ok r.expression := by
  intro r
  obtain ⟨quoted, written, same⟩ := parse_quoted (r := r) (by decide +kernel)
  refine ⟨by decide +kernel, quoted, by decide +kernel, ?_⟩
  rw [written, same.2 (by decide +kernel)]

/-- A name that is a time function in lower case comes back in upper case. -/
theorem parse_quoted_lowered :
    let r : PathReference := ⟨["current_timestamp"], none⟩
    r.Named ∧ r.quotedText = "\x60current_timestamp\x60" ∧
    Parser.parse Keywords.mysql EntryPoint.expression.rule r.quotedText = .ok r.expression ∧
    r.expression.layout.write = "current_timestamp" ∧
    Parser.parse Keywords.mysql EntryPoint.expression.rule r.expression.layout.write ≠
      .ok r.expression := by
  intro r
  exact ⟨by decide +kernel, by decide +kernel, Parser.eq_ok_of_toOption (by decide +kernel),
    by decide +kernel, Parser.ne_ok_of_toOption (by decide +kernel)⟩

end PathReference
end TableDdl
