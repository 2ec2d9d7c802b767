import TableDdl.Proofs.RoundTrip.Peeks

/-!
# Replaying the tokens of expressions

Words, operators, names and literals. Three rules need care: the operator for unequal has two
spellings, a quantifier may turn out to be a name, and a time function is written as a word even
where it was a name in quotes.
-/
namespace TableDdl

open Text Writes

namespace Replay

variable {calls : Nat}

theorem ends_of_terminal {terminal : Terminal} (other : terminal ≠ .literal ")")
    (other' : terminal ≠ .literal ";") {t : Token} (kind : t.kind = .operator)
    (text : t.text = ")" ∨ t.text = ";") : terminal.accept Keywords.mysql t = none := by
  cases terminal with
  | literal literal =>
    rcases text with text | text
    · have different : ¬ ")" = literal := by
        rintro rfl
        exact other rfl
      simp [Terminal.accept, Token.spells, Token.isWord, kind, text, different]
    · have different : ¬ ";" = literal := by
        rintro rfl
        exact other' rfl
      simp [Terminal.accept, Token.spells, Token.isWord, kind, text, different]
  | _ => simp [Terminal.accept, kind]

/-- The words of clauses and operators, each with whether it is firm: a word that is not reserved
may turn out to be a name. -/
def clauseWords : List (String × Bool) :=
  [("ALL", true), ("AND", true), ("AS", true), ("BETWEEN", true), ("BY", true), ("DISTINCT", true),
    ("EXISTS", true), ("FALSE", true), ("FROM", true), ("GROUP", true), ("IN", true), ("IS", true),
    ("LIKE", true), ("LIMIT", true), ("MAXVALUE", true), ("NOT", true), ("NULL", true),
    ("OFFSET", false), ("OR", true), ("SELECT", true), ("TOP", false), ("TRUE", true),
    ("VALUES", true), ("WHERE", true)]

theorem clauseWords_known : ∀ w ∈ clauseWords, w.1 ∈ replayedWords ∧
    (Terminal.literal w.1).steady = true ∧ (Terminal.literal w.1).firm = w.2 := by
  have known : clauseWords.all (fun w => replayedWords.contains w.1 &&
      (Terminal.literal w.1).steady && (Terminal.literal w.1).firm == w.2) = true := by
    decide +kernel
  simpa [and_assoc] using known

/-- The marks between words and names; comparisons are apart. -/
def expressionSymbols : List String := ["+", "-", "*", "/", "%", "||", ",", ".", "("]

theorem expressionSymbols_known : ∀ text ∈ expressionSymbols, startsWord text = false ∧
    (Terminal.literal text).steady = true ∧ (Terminal.literal text).firm = true ∧ text ≠ ")" ∧
    text ≠ ";" := by decide

/-- A word of the rules, in any letter case. -/
theorem word (text : String) (firm : Bool)
    (listed : (text, firm) ∈ clauseWords) :
    Replay calls (Grammar.literal text) firm
      (fun _ t => t = .plain [.word text]) := by
  obtain ⟨mem, steady, known⟩ := clauseWords_known _ listed
  have plain := isPlainWord_of_mem_replayedWords mem
  have other {symbol : String} (odd : isPlainWord symbol = false) :
      Terminal.literal text ≠ .literal symbol := by
    rintro ⟨rfl⟩
    rw [plain] at odd
    cases odd
  apply of_peeks (Rule.Peeks.token (.literal text))
  constructor
  · exact ends_of_terminal (other (by decide)) (other (by decide))
  · exact fun _ renders refused => renders.refuses steady refused
  · exact fun strong sound renders accepted => renders.accepts sound (known.trans strong) accepted
  · intro t x sound accepted
    obtain ⟨spells, rfl⟩ : t.spells text = true ∧ text = x := by
      simpa [Terminal.accept] using accepted
    have keyword : Keywords.mysql.isKeyword text = true := by simp_all [Terminal.steady]
    obtain ⟨kind, same⟩ := Renders.kind_of_spells sound plain keyword spells
    refine ⟨.word text, _, rfl, rfl, rfl, .word kind same mem, fun _ => ?_⟩
    rw [Terminal.accept_literal_word plain, sameWord_refl]
    rfl

theorem symbol (text : String)
    (listed : text ∈ expressionSymbols) :
    Replay calls (Grammar.literal text) true (fun _ t => t = .plain [.symbol text]) := by
  obtain ⟨odd, steady, known, other, other'⟩ := expressionSymbols_known _ listed
  apply of_peeks (Rule.Peeks.token (.literal text))
  constructor
  · exact ends_of_terminal (by simpa using other) (by simpa using other')
  · exact fun _ renders refused => renders.refuses steady refused
  · exact fun _ sound renders accepted => renders.accepts sound known accepted
  · intro t x sound accepted
    obtain ⟨spells, rfl⟩ : t.spells text = true ∧ text = x := by
      simpa [Terminal.accept] using accepted
    obtain ⟨kind, same⟩ := Token.operator_of_spells sound odd spells
    refine ⟨.symbol text, _, rfl, rfl, rfl, .symbol kind same other', fun _ => ?_⟩
    rw [Terminal.accept_literal_symbol, if_pos rfl]

theorem identifier : Replay calls Grammar.identifier false (Exactly fun n => .plain [.name n]) := by
  apply of_peeks (Rule.Peeks.token .identifier)
  constructor
  · exact ends_of_terminal (by decide) (by decide)
  · exact fun _ renders refused => renders.refuses rfl refused
  · exact fun firm => by cases firm
  · intro t x _ accepted
    exact ⟨.name x, _, rfl, rfl, rfl, .name accepted, fun _ => Terminal.accept_identifier_name⟩

theorem string : Replay calls Grammar.string true (Exactly fun s => .plain [.string s]) := by
  apply of_peeks (Rule.Peeks.token .string)
  constructor
  · exact ends_of_terminal (by decide) (by decide)
  · exact fun _ renders refused => renders.refuses rfl refused
  · exact fun _ sound renders accepted => renders.accepts sound rfl accepted
  · intro t x _ accepted
    exact ⟨.string x, _, rfl, rfl, rfl, .string accepted, fun _ => Terminal.accept_string_string⟩

/-- The value of a number, if it is finite. -/
def finite (t : Token) : Option Number.Binary64 :=
  if t.kind = .number then Number.Binary64.ofText? t.text.toList else none

theorem peeks_number : Grammar.number.Peeks calls finite := by
  have peeks : Grammar.number.Peeks calls _ := (@Rule.Peeks.token calls .number).convert _
  refine (congrArg (Rule.Peeks calls Grammar.number) (funext fun t => ?_)).mpr peeks
  by_cases kind : t.kind = .number
  · cases value : Number.Binary64.ofText? t.text.toList <;>
      simp [finite, Terminal.accept, kind, value, Except.toOption]
  · simp [finite, Terminal.accept, kind]

theorem finite_written (x : Number.Binary64) : finite (Lexeme.number x).token = some x := by
  simp [finite, Lexeme.token, Lexeme.kind, Lexeme.text, Number.ofText?_write]

/-- A number that was read is a finite one, and so is the one that is written. -/
theorem number : Replay calls Grammar.number true (Exactly fun x => .plain [.number x]) := by
  apply of_peeks peeks_number
  constructor
  · intro t kind _
    simp [finite, kind]
  · intro t l _ renders refused
    cases renders with
    | number kind text => simp [finite, kind, text] at refused
    | word _ _ _ => simp [finite, Lexeme.token, Renders.kind_word]
    | head _ _ => simp [finite, Lexeme.token, Renders.kind_word]
    | _ => simp [finite, Lexeme.token, Lexeme.kind]
  · intro t l x _ _ renders accepted
    obtain ⟨kind, -⟩ : t.kind = .number ∧ _ := by simpa [finite] using accepted
    cases renders with
    | @number y _ _ => exact ⟨y, finite_written y⟩
    | name named => simp [Terminal.accept, kind] at named
    | head named _ => simp [Terminal.accept, kind] at named
    | string named => simp [Terminal.accept, kind] at named
    | _ => simp_all
  · intro t x _ accepted
    obtain ⟨kind, value⟩ : t.kind = .number ∧ Number.Binary64.ofText? t.text.toList = some x := by
      simpa [finite] using accepted
    exact ⟨.number x, _, rfl, rfl, rfl, .number kind value, fun _ => finite_written x⟩

theorem boolean : Replay calls Grammar.boolean true
    (Exactly fun b => .plain [.word (if b then "TRUE" else "FALSE")]) :=
  (((word "TRUE" true (by decide)).map _).either
    ((word "FALSE" true (by decide)).map _)).restate (by
    rintro b t (⟨_, rfl, rfl⟩ | ⟨_, rfl, rfl⟩) <;> rfl)

theorem addOp : Replay calls (Grammar.spelled : DdlRule AddOp) true
    (Exactly fun op => .plain [.symbol (Spelled.head op)]) :=
  (((symbol "+" (by decide)).map _).either ((symbol "-" (by decide)).map _)).restate (by
    rintro b t (⟨_, rfl, rfl⟩ | ⟨_, rfl, rfl⟩) <;> rfl)

theorem multiplyOp : Replay calls (Grammar.spelled : DdlRule MultiplyOp) true
    (Exactly fun op => .plain [.symbol (Spelled.head op)]) :=
  (((symbol "*" (by decide)).map _).either (((symbol "/" (by decide)).map _).either
    ((symbol "%" (by decide)).map _))).restate (by
    rintro b t (⟨_, rfl, rfl⟩ | ⟨_, rfl, rfl⟩ | ⟨_, rfl, rfl⟩) <;> rfl)

theorem selectQuantifier : Replay calls (Grammar.spelled : DdlRule SelectQuantifier) true
    (Exactly fun q => .plain [.word (Spelled.head q)]) :=
  (((word "DISTINCT" true (by decide)).map _).either
    ((word "ALL" true (by decide)).map _)).restate (by
    rintro b t (⟨_, rfl, rfl⟩ | ⟨_, rfl, rfl⟩) <;> rfl)

/-- What a choice of literals makes of a token. -/
def choose {α : Type} (options : List (String × α)) (t : Token) : Option α :=
  options.findSome? fun o => ((Terminal.literal o.1).accept Keywords.mysql t).map fun _ => o.2

section Choose

variable {α : Type} {options : List (String × α)} {t : Token} {x : α}

theorem choose_eq_none_iff : choose options t = none ↔
    ∀ o ∈ options, (Terminal.literal o.1).accept Keywords.mysql t = none := by
  simp [choose]

theorem spells_of_choose (h : choose options t = some x) :
    ∃ text, (text, x) ∈ options ∧ t.spells text = true := by
  obtain ⟨⟨text, y⟩, mem, accepted⟩ := List.exists_of_findSome?_eq_some h
  obtain ⟨_, accepted, rfl⟩ := Option.map_eq_some_iff.1 accepted
  exact ⟨text, mem, by simp_all [Terminal.accept]⟩

theorem peeks_oneOf (first : String × α) (others : List (String × α)) :
    (Rule.oneOf ((Grammar.literal first.1).as first.2)
      (others.map fun o => (Grammar.literal o.1).as o.2) : DdlRule α).Peeks calls
      (choose (first :: others)) := by
  induction others generalizing first with
  | nil =>
    have peeks := (@Rule.Peeks.token calls (.literal first.1)).map fun _ => first.2
    have same : choose [first] = fun t =>
        ((Terminal.literal first.1).accept Keywords.mysql t).map fun _ => first.2 := by
      funext t
      simp [choose]
    rw [same]
    exact peeks
  | cons second others ih =>
    have peeks := ((Rule.Peeks.token (.literal first.1)).map fun _ => first.2).either (ih second)
    have same : choose (first :: second :: others) = fun t =>
        ((Terminal.literal first.1).accept Keywords.mysql t).map (fun _ => first.2) <|>
          choose (second :: others) t := by
      funext t
      simp only [choose, List.findSome?_cons]
      cases (Terminal.literal first.1).accept Keywords.mysql t <;> rfl
    rw [same]
    exact peeks

/-- A word is chosen as the token was. -/
theorem choose_word {text : String} (kind : t.kind = .keyword)
    (same : sameWord t.text text = true) (plain : isPlainWord text = true) :
    choose options (Lexeme.word text).token = choose options t := by
  have values (o : String × α) :
      ((Terminal.literal o.1).accept Keywords.mysql (Lexeme.word text).token).map (fun _ => o.2) =
        ((Terminal.literal o.1).accept Keywords.mysql t).map fun _ => o.2 := by
    have again := Renders.accept_word (.literal o.1) kind same plain
    cases accepted : (Terminal.literal o.1).accept Keywords.mysql t <;>
      cases accepted' : (Terminal.literal o.1).accept Keywords.mysql (Lexeme.word text).token <;>
      simp_all
  simp only [choose, values]

theorem choose_symbol {text : String} (kind : t.kind = .operator) (same : t.text = text) :
    choose options (Lexeme.symbol text).token = choose options t := by
  have values (o : String × α) :
      (Terminal.literal o.1).accept Keywords.mysql (Lexeme.symbol text).token =
        (Terminal.literal o.1).accept Keywords.mysql t := by
    rw [Terminal.accept_literal_symbol]
    simp [Terminal.accept, Token.spells, Token.isWord, kind, same]
  simp only [choose, values]

end Choose

def quantifiers : List (String × Quantifier) := [("ALL", .all), ("ANY", .any), ("SOME", .some)]

theorem peeks_quantifier :
    (Grammar.spelled : DdlRule Quantifier).Peeks calls (choose quantifiers) :=
  peeks_oneOf ("ALL", Quantifier.all) [("ANY", .any), ("SOME", .some)]

/-- A quantifier may turn out to be a name. -/
theorem quantifier : Replay calls (Grammar.spelled : DdlRule Quantifier) false
    (Exactly fun q => .plain [.word (Spelled.head q)]) := by
  have words : ∀ o ∈ quantifiers, o.1 ∈ replayedWords ∧ Keywords.mysql.isKeyword o.1 = true ∧
      (Terminal.literal o.1).steady = true ∧ o.1 = Spelled.head o.2 := by
    have known : quantifiers.all (fun o => replayedWords.contains o.1 &&
        Keywords.mysql.isKeyword o.1 && (Terminal.literal o.1).steady &&
        o.1 == Spelled.head o.2) = true := by decide
    simpa [and_assoc] using known
  apply of_peeks peeks_quantifier
  constructor
  · intro t kind text
    rw [choose_eq_none_iff]
    intro o ho
    apply ends_of_terminal _ _ kind text <;> revert o <;> decide
  · intro t l _ renders refused
    rw [choose_eq_none_iff] at refused ⊢
    exact fun o ho => renders.refuses (words o ho).2.2.1 (refused o ho)
  · exact fun firm => by cases firm
  · intro t x sound accepted
    obtain ⟨text, mem, spells⟩ := spells_of_choose accepted
    obtain ⟨listed, keyword, -, known⟩ := words _ mem
    obtain rfl : text = Spelled.head x := known
    have plain := isPlainWord_of_mem_replayedWords listed
    obtain ⟨kind, same⟩ := Renders.kind_of_spells sound plain keyword spells
    exact ⟨_, _, rfl, rfl, rfl, .word kind same listed,
      fun _ => by rw [choose_word kind same plain, accepted]⟩

/-- The operators of comparisons. -/
def comparisons : List (String × CompareOp) :=
  [("<>", .notEqual), ("<=", .lessEqual), (">=", .greaterEqual), ("=", .equal), ("<", .less),
    (">", .greater), ("!=", .notEqual)]

theorem comparisons_known : ∀ o ∈ comparisons, isPlainWord o.1 = false ∧ startsWord o.1 = false ∧
    (o.1 = Spelled.head o.2 ∨ o.1 = "!=" ∧ o.2 = .notEqual) ∧ Spelled.head o.2 ≠ ";" := by
  decide

theorem peeks_compareOp : Grammar.compareOp.Peeks calls (choose comparisons) := by
  have spelled : (Grammar.spelled : DdlRule CompareOp).Peeks calls (choose (comparisons.take 6)) :=
    peeks_oneOf ("<>", CompareOp.notEqual) [("<=", .lessEqual), (">=", .greaterEqual), ("=", .equal),
      ("<", .less), (">", .greater)]
  have second : ((Grammar.literal "!=").as .notEqual : DdlRule CompareOp).Peeks calls
      (choose (comparisons.drop 6)) := peeks_oneOf ("!=", CompareOp.notEqual) []
  have same : choose comparisons = fun t =>
      choose (comparisons.take 6) t <|> choose (comparisons.drop 6) t := by
    funext t
    calc choose comparisons t = choose (comparisons.take 6 ++ comparisons.drop 6) t := by
          rw [List.take_append_drop]
      _ = (choose (comparisons.take 6) t <|> choose (comparisons.drop 6) t) := by
          rw [choose, List.findSome?_append, ← choose, ← choose]
          cases choose (comparisons.take 6) t <;> rfl
  rw [same]
  exact spelled.either second

theorem operator_of_comparison {t : Token} {x : CompareOp} (sound : t.Sound Keywords.mysql)
    (h : choose comparisons t = some x) :
    t.kind = .operator ∧ (t.text = Spelled.head x ∨ t.text = "!=" ∧ x = .notEqual) ∧
      Spelled.head x ≠ ";" := by
  obtain ⟨text, mem, spells⟩ := spells_of_choose h
  obtain ⟨-, odd, known⟩ := comparisons_known _ mem
  obtain ⟨kind, rfl⟩ := Token.operator_of_spells sound odd spells
  exact ⟨kind, known⟩

theorem comparison_refuses {t : Token} {l : Lexeme} (renders : Renders t l)
    (refused : choose comparisons t = none) : choose comparisons l.token = none := by
  have apart {word : String} (plain : isPlainWord word = true) :
      choose comparisons (Lexeme.word word).token = none := by
    rw [choose_eq_none_iff]
    intro o ho
    rw [Terminal.accept_literal_word plain, if_neg]
    intro same
    rw [isPlainWord_congr same, (comparisons_known o ho).1] at plain
    cases plain
  cases renders with
  | symbol kind same _ => rw [choose_symbol kind same, refused]
  | unequal kind text =>
    rw [choose_eq_none_iff] at refused
    have := refused ("!=", .notEqual) (by decide)
    simp [Terminal.accept, Token.spells, Token.isWord, kind, text] at this
  | word _ _ listed => exact apart (isPlainWord_of_mem_replayedWords listed)
  | head _ time => exact apart (Renders.isPlainWord_of_timeFunction time)
  | name _ =>
    rw [choose_eq_none_iff]
    exact fun o ho => Terminal.accept_literal_name (.inr (comparisons_known o ho).1)
  | _ =>
    rw [choose_eq_none_iff]
    simp [Terminal.accept, Lexeme.token, Lexeme.kind, Token.spells, Token.isWord]

theorem comparison_accepts {t : Token} {l : Lexeme} {x : CompareOp}
    (sound : t.Sound Keywords.mysql) (renders : Renders t l)
    (accepted : choose comparisons t = some x) : ∃ y, choose comparisons l.token = some y := by
  obtain ⟨kind, text, -⟩ := operator_of_comparison sound accepted
  cases renders with
  | symbol _ same _ => exact ⟨x, by rw [choose_symbol kind same, accepted]⟩
  | unequal _ _ => exact ⟨.notEqual, rfl⟩
  | name named => simp [Terminal.accept, kind] at named
  | head named _ => simp [Terminal.accept, kind] at named
  | string named => simp [Terminal.accept, kind] at named
  | _ => simp_all

/-- Unequal is written with its first spelling. -/
theorem compareOp : Replay calls Grammar.compareOp true
    (Exactly fun op => .plain [.symbol (Spelled.head op)]) := by
  apply of_peeks peeks_compareOp
  constructor
  · intro t kind text
    rw [choose_eq_none_iff]
    intro o ho
    apply ends_of_terminal _ _ kind text <;> revert o <;> decide
  · exact fun _ renders refused => comparison_refuses renders refused
  · exact fun _ sound renders accepted => comparison_accepts sound renders accepted
  · intro t x sound accepted
    obtain ⟨kind, same | ⟨unequal, rfl⟩, other⟩ := operator_of_comparison sound accepted
    · exact ⟨_, _, rfl, rfl, rfl, .symbol kind same other,
        fun _ => by rw [choose_symbol kind same, accepted]⟩
    · exact ⟨_, _, rfl, rfl, rfl, .unequal kind unequal, fun _ => rfl⟩

/-- The text of the first name of a reference. -/
def headText (name : String) : Written :=
  ⟨[if timeFunctionNames.any (sameWord name) then .word name else .name name], [], [name]⟩

/-- What a token is as the first name of a reference. -/
def headName (t : Token) : Option String :=
  Terminal.identifier.accept Keywords.mysql t <|> choose (timeFunctionNames.map fun n => (n, n)) t

theorem peeks_headName :
    (Grammar.identifier <|> Grammar.timeFunctionName : DdlRule String).Peeks calls headName := by
  have names : Grammar.timeFunctionName.Peeks calls (choose (timeFunctionNames.map fun n => (n, n))) :=
    peeks_oneOf ("CURRENT_TIMESTAMP", "CURRENT_TIMESTAMP") [("LOCALTIME", "LOCALTIME"),
      ("LOCALTIMESTAMP", "LOCALTIMESTAMP"), ("NOW", "NOW")]
  exact (Rule.Peeks.token .identifier).either names

/-- A time function in any letter case is a head. -/
theorem exists_headName {name : String} (time : timeFunctionNames.any (sameWord name) = true) :
    ∃ x, headName (Lexeme.word name).token = some x := by
  have plain := Renders.isPlainWord_of_timeFunction time
  obtain ⟨word, mem, same⟩ := List.any_eq_true.1 time
  cases named : Terminal.identifier.accept Keywords.mysql (Lexeme.word name).token with
  | some x => exact ⟨x, by simp [headName, named]⟩
  | none =>
    cases chosen : choose (timeFunctionNames.map fun n => (n, n)) (Lexeme.word name).token with
    | some x => exact ⟨x, by simp [headName, named, chosen]⟩
    | none =>
      have refused := choose_eq_none_iff.1 chosen (word, word) (List.mem_map.2 ⟨word, mem, rfl⟩)
      rw [Terminal.accept_literal_word plain, same] at refused
      cases refused

/-- A time function that is as it has to be is read as it is. -/
theorem headName_of_headOk {name : String} (time : timeFunctionNames.any (sameWord name) = true)
    (ok : HeadOk name) : headName (Lexeme.word name).token = some name := by
  have plain := Renders.isPlainWord_of_timeFunction time
  obtain ⟨word, mem, same⟩ := List.any_eq_true.1 time
  by_cases now : word = "NOW"
  · have free : Keywords.mysql.isReserved name = false := by
      rw [isReserved_congr same, now]
      decide +kernel
    simp [headName, Terminal.accept_identifier_word plain, free]
  · have listed : word ∈ ["CURRENT_TIMESTAMP", "LOCALTIME", "LOCALTIMESTAMP"] := by
      simp only [timeFunctionNames, List.mem_cons, List.not_mem_nil, or_false] at mem ⊢
      grind
    rw [ok word listed same]
    clear ok same now mem
    revert word
    decide +kernel

theorem timeFunctions_known : ∀ o ∈ timeFunctionNames.map fun n => (n, n),
    isPlainWord o.1 = true ∧ Keywords.mysql.isKeyword o.1 = true ∧ o.1 ≠ ")" ∧ o.1 ≠ ";" := by
  decide

theorem kind_of_headName {t : Token} {x : String} (sound : t.Sound Keywords.mysql)
    (h : headName t = some x) : t.kind = .identifier ∨ t.kind = .keyword := by
  cases named : Terminal.identifier.accept Keywords.mysql t with
  | some y =>
    cases kind : t.kind <;> simp_all [Terminal.accept]
  | none =>
    have chosen : choose (timeFunctionNames.map fun n => (n, n)) t = some x := by
      simpa [headName, named] using h
    obtain ⟨text, mem, spells⟩ := spells_of_choose chosen
    obtain ⟨plain, keyword, -, -⟩ := timeFunctions_known _ mem
    exact .inr (Renders.kind_of_spells sound plain keyword spells).1

section HeadName

variable {t : Token} {l : Lexeme} {x text : String}

theorem headName_eq_none_iff : headName t = none ↔
    Terminal.identifier.accept Keywords.mysql t = none ∧
      choose (timeFunctionNames.map fun n => (n, n)) t = none := by
  simp [headName]

/-- A word is a head where the token was one. -/
theorem isSome_headName_word (kind : t.kind = .keyword) (same : sameWord t.text text = true)
    (plain : isPlainWord text = true) :
    (headName (Lexeme.word text).token).isSome = (headName t).isSome := by
  have named := Renders.accept_word .identifier kind same plain
  have chosen : choose (timeFunctionNames.map fun n => (n, n)) (Lexeme.word text).token =
      choose (timeFunctionNames.map fun n => (n, n)) t := choose_word kind same plain
  simp only [headName, Option.orElse_eq_orElse, Option.orElse_eq_or, Option.isSome_or, named, chosen]

theorem headName_of_ends (kind : t.kind = .operator) (ends : t.text = ")" ∨ t.text = ";") :
    headName t = none := by
  rw [headName_eq_none_iff, choose_eq_none_iff]
  refine ⟨ends_of_terminal (by decide) (by decide) kind ends, fun o ho => ?_⟩
  obtain ⟨-, -, other, other'⟩ := timeFunctions_known o ho
  exact ends_of_terminal (by simpa using other) (by simpa using other') kind ends

theorem headName_refuses (renders : Renders t l) (refused : headName t = none) :
    headName l.token = none := by
  obtain ⟨named, chosen⟩ := headName_eq_none_iff.1 refused
  cases renders with
  | word kind same listed =>
    have plain := isPlainWord_of_mem_replayedWords listed
    rw [← Option.not_isSome_iff_eq_none, isSome_headName_word kind same plain, refused]
    exact Bool.false_ne_true
  | symbol kind same _ =>
    rw [headName_eq_none_iff, choose_symbol kind same]
    exact ⟨by simp [Terminal.accept, Lexeme.token, Lexeme.kind], chosen⟩
  | unequal _ _ =>
    rw [headName_eq_none_iff, choose_eq_none_iff]
    simp [Terminal.accept, Lexeme.token, Lexeme.kind, Lexeme.text, Token.spells, Token.isWord,
      timeFunctionNames]
  | name accepted => simp [named] at accepted
  | head accepted _ => simp [named] at accepted
  | _ =>
    rw [headName_eq_none_iff, choose_eq_none_iff]
    simp [Terminal.accept, Lexeme.token, Lexeme.kind, Token.spells, Token.isWord]

theorem headName_accepts (sound : t.Sound Keywords.mysql) (renders : Renders t l)
    (accepted : headName t = some x) : ∃ y, headName l.token = some y := by
  have kind := kind_of_headName sound accepted
  cases renders with
  | word keyword same listed =>
    have plain := isPlainWord_of_mem_replayedWords listed
    rw [← Option.isSome_iff_exists, isSome_headName_word keyword same plain, accepted]
    rfl
  | name _ => exact ⟨_, by simp [headName, Terminal.accept_identifier_name]; rfl⟩
  | head _ time => exact exists_headName time
  | string named => simp_all [Terminal.accept]
  | _ => simp_all

/-- A name that is a time function is written as a word, any other one in quotes. -/
theorem written_head_of_name (named : Terminal.identifier.accept Keywords.mysql t = some x) :
    ∃ l, (headText x).lexemes = [l] ∧ Renders t l ∧
      ((headText x).Good → headName l.token = some x) := by
  by_cases time : timeFunctionNames.any (sameWord x) = true
  · refine ⟨.word x, by simp [headText, time], .head named time, fun good => ?_⟩
    exact headName_of_headOk time (good.2 x (by simp [headText]))
  · refine ⟨.name x, by simp [headText, time], .name named, fun _ => ?_⟩
    simp [headName, Terminal.accept_identifier_name]

theorem mem_replayedWords_of_isReserved (time : x ∈ timeFunctionNames)
    (taken : Keywords.mysql.isReserved x = true) : x ∈ replayedWords := by
  have known : timeFunctionNames.all (fun n => !Keywords.mysql.isReserved n ||
      replayedWords.contains n) = true := by
    decide +kernel
  simpa [taken] using List.all_eq_true.1 known x time

theorem written_head_of_timeFunction (sound : t.Sound Keywords.mysql)
    (named : Terminal.identifier.accept Keywords.mysql t = none)
    (chosen : choose (timeFunctionNames.map fun n => (n, n)) t = some x) :
    ∃ l, (headText x).lexemes = [l] ∧ Renders t l ∧
      ((headText x).Good → headName l.token = some x) := by
  obtain ⟨text, mem, spells⟩ := spells_of_choose chosen
  obtain ⟨plain, keyword, -, -⟩ := timeFunctions_known _ mem
  obtain ⟨kind, same⟩ := Renders.kind_of_spells sound plain keyword spells
  obtain ⟨listed, rfl⟩ : x ∈ timeFunctionNames ∧ x = text := by simpa using mem
  have time : timeFunctionNames.any (sameWord x) = true :=
    List.any_eq_true.2 ⟨x, listed, sameWord_refl x⟩
  have taken : Keywords.mysql.isReserved x = true := by
    rw [← isReserved_congr same]
    simpa [Terminal.accept, kind] using named
  refine ⟨.word x, by simp [headText, time],
    .word kind same (mem_replayedWords_of_isReserved listed taken), fun good => ?_⟩
  exact headName_of_headOk time (good.2 x (by simp [headText]))

/-- The head of a reference, which a time function is without quotes. -/
theorem head : Replay calls (.either Grammar.identifier Grammar.timeFunctionName) true
    (Exactly headText) := by
  apply of_peeks peeks_headName
  constructor
  · exact fun kind ends => headName_of_ends kind ends
  · exact fun _ renders refused => headName_refuses renders refused
  · exact fun _ sound renders accepted => headName_accepts sound renders accepted
  · intro t x sound accepted
    have written : ∃ l, (headText x).lexemes = [l] ∧ Renders t l ∧
        ((headText x).Good → headName l.token = some x) := by
      cases named : Terminal.identifier.accept Keywords.mysql t with
      | some y =>
        obtain rfl : y = x := by simpa [headName, named] using accepted
        exact written_head_of_name named
      | none =>
        exact written_head_of_timeFunction sound named (by simpa [headName, named] using accepted)
    obtain ⟨l, text, renders, again⟩ := written
    exact ⟨l, headText x, rfl, rfl, text, renders, again⟩

end HeadName

section Parentheses

variable {r : DdlRule α} {f : Bool} {W : α → Written → Prop}

/-- The text in parentheses. -/
def enclosed (t : Written) : Written := .plain [.symbol "("] ++ t ++ .plain [.symbol ")"]

def Enclosed (W : α → Written → Prop) : α → Written → Prop := fun x t => ∃ u, W x u ∧ t = enclosed u

theorem open_replay : Replay calls (Grammar.literal "(") true
    (fun _ t => t = .plain [.symbol "("]) := symbol "(" (by decide)

theorem close_matched {c next : Cursor} {x : String}
    (sound : ∀ t ∈ c.rest, t.Sound Keywords.mysql)
    (read : (Grammar.literal ")").read calls c = .matched x next) :
    ∃ t, c.rest = t :: next.rest ∧ t.kind = .operator ∧ t.text = ")" := by
  obtain ⟨t, rest, whole, accepted, rfl⟩ := token_matched_iff.1 read
  obtain ⟨spells, -⟩ : t.spells ")" = true ∧ _ := by simpa [Terminal.accept] using accepted
  exact ⟨t, whole, Token.operator_of_spells (sound t (by simp [whole])) (by decide) spells⟩

theorem avoids_of_failed {terminal : Terminal} {c : Cursor} {e : Failure}
    (failed : (Rule.token terminal : DdlRule String).read calls c = .failed e) :
    Avoids [terminal] c.rest := by
  intro t ht first hfirst
  obtain rfl : t = terminal := by simpa using ht
  cases accepted : t.accept Keywords.mysql first with
  | none => rfl
  | some x =>
    cases tokens : c.rest with
    | nil => simp [tokens] at hfirst
    | cons t ts =>
      obtain rfl : t = first := by simpa [tokens] using hfirst
      rw [token_matched_iff.2 ⟨t, ts, tokens, accepted, rfl⟩] at failed
      cases failed

/-- What stands in parentheses reads back whatever follows them. -/
theorem written_parenthesized (h : Replay calls r f W) {c next : Cursor} {x : α}
    (sound : ∀ t ∈ c.rest, t.Sound Keywords.mysql)
    (read : (Grammar.parenthesized r).read calls c = .matched x next) :
    ∃ taken u, W x u ∧ u.looseNames = [] ∧ c.rest = taken ++ next.rest ∧
      List.Forall₂ Renders taken (enclosed u).lexemes ∧
      (u.Good → ∀ pos rest,
        (Grammar.parenthesized r).Takes calls c.depth pos (enclosed u).lexemes rest x) := by
  obtain ⟨_, mid, opened, closed⟩ := Rule.seqLeft_matched_iff.1 read
  obtain ⟨taken, t, writes, loose, whole, renders, takes⟩ :=
    ((open_replay.both h).map Prod.snd).written sound opened
  obtain ⟨⟨_, x⟩, ⟨_, u, rfl, writes, rfl⟩, rfl⟩ := writes
  obtain ⟨close, last, kind, text⟩ := close_matched (sound_of_read sound opened) closed
  refine ⟨taken ++ [close], u, writes, by simpa using loose, by rw [whole, last]; simp,
    List.rel_append renders (.cons (.symbol kind text (by decide)) .nil), fun good pos rest => ?_⟩
  have inside : Inside mid.rest ((Lexeme.symbol ")").token :: rest) :=
    .closed ⟨close, next.rest, last, kind, text⟩ ⟨_, rest, rfl, rfl, by decide⟩
  have good' : (Written.plain [.symbol "("] ++ u).Good := by
    exact Written.good_append.2 ⟨⟨by simp, by simp⟩, good⟩
  have first := takes good' pos _ inside
  have second : (Grammar.literal ")").Takes calls c.depth
      (pos + (Written.plain [.symbol "("] ++ u).lexemes.length) [.symbol ")"] rest ")" :=
    token_matched_iff.2 ⟨_, rest, rfl, by rw [Terminal.accept_literal_symbol, if_pos rfl], rfl⟩
  exact (Rule.Takes.both first second).map Prod.fst

theorem parenthesized (h : Replay calls r f W) :
    Replay calls (Grammar.parenthesized r) true (Enclosed W) where
  fails {k c c'} bound beside fails := by
    have opening := (open_replay.both h).map Prod.snd
    have fails := (Rule.failsIn_map Prod.fst).1 fails
    refine (Rule.failsIn_map Prod.fst).2 ?_
    rw [Rule.failsIn_both] at fails ⊢
    rcases fails with fails | ⟨x, mid, opened, e, failed, near⟩
    · exact .inl (opening.fails bound beside fails)
    have le := Rule.le_of_failed failed
    have le' := (Rule.reaches_of_read opened).le
    rcases opening.short beside opened (by omega) with ⟨y, mid', again, pos, later⟩ | ⟨-, one, lost⟩
    · have avoids := later.rest.avoids (by decide) (by decide) (avoids_of_failed failed)
      obtain ⟨e', failed', here⟩ := @Rule.failsHere_token calls _ _ avoids
      exact .inr ⟨y, mid', again, e', failed', by omega⟩
    · obtain rfl : k = 1 := by omega
      exact .inl lost
  short {c c' next x} beside read near := by
    obtain ⟨_, mid, opened, closed⟩ := Rule.seqLeft_matched_iff.1 read
    -- Two parentheses alone are too long for a short reading.
    have := Rule.consumes_of_some (r := Grammar.literal "(" *> r) rfl opened
    have := Rule.consumes_of_some (r := Grammar.literal ")") rfl closed
    have := (Rule.reaches_of_read opened).le
    have := (Rule.reaches_of_read closed).le
    omega
  written sound read := by
    obtain ⟨taken, u, writes, loose, whole, renders, takes⟩ := written_parenthesized h sound read
    refine ⟨taken, enclosed u, ⟨u, writes, rfl⟩, by simp [enclosed, loose], whole, renders, ?_⟩
    intro good pos rest _
    have inner : u.Good := by
      simp only [enclosed, Written.good_append] at good
      exact good.1.2
    exact takes inner pos rest

end Parentheses

end Replay
end TableDdl
