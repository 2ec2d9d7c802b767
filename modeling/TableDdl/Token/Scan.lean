import TableDdl.Text.Letter
import TableDdl.Token.Basic

/-!
# Scanning one token

Each scanner takes the token of its class that stands at the front of a text and gives what it
took and what is left. `scan` tries them in a fixed order. Main statement: what it took and
what is left make up the text, and it never takes nothing.
-/
namespace TableDdl.Scan

open Text

/-- What was taken from the front of a text, and what is left of it. -/
abbrev Split := List Char × List Char

def isWordStart (c : Char) : Bool := isLetter c || c == '_'

def isWordPart (c : Char) : Bool := isLetter c || isNumeral c || c == '_'

/-- Only these blanks may stand between tokens. -/
def isSpace (c : Char) : Bool := c == ' ' || c == '\t' || c == '\r' || c == '\n'

def word? : List Char → Option Split
  | [] => none
  | c :: cs =>
    if isWordStart c then some (c :: cs.takeWhile isWordPart, cs.dropWhile isWordPart) else none

def spaces? : List Char → Option Split
  | [] => none
  | c :: cs =>
    if isSpace c then some (c :: cs.takeWhile isSpace, cs.dropWhile isSpace) else none

/-- A name between backquotes, which is not empty and holds no backquote. -/
def quotedName? : List Char → Option Split
  | '\x60' :: cs =>
    match cs.takeWhile (· != '\x60'), cs.dropWhile (· != '\x60') with
    | c :: name, q :: rest => some ('\x60' :: c :: name ++ [q], rest)
    | _, _ => none
  | _ => none

/-- A text up to the next `quote`. There is no escape. -/
def closedBy? (quote : Char) (cs : List Char) : Option Split :=
  match cs.dropWhile (· != quote) with
  | q :: rest => some (quote :: cs.takeWhile (· != quote) ++ [q], rest)
  | [] => none

def string? : List Char → Option Split
  | '\x27' :: cs => closedBy? '\x27' cs
  | '"' :: cs => closedBy? '"' cs
  | _ => none

def sign (allowed : Bool) : List Char → Split
  | [] => ([], [])
  | c :: cs => if allowed && (c == '+' || c == '-') then ([c], cs) else ([], c :: cs)

def digits (cs : List Char) : Split := (cs.takeWhile Char.isDigit, cs.dropWhile Char.isDigit)

/-- Digits, or a fraction with or without digits before the point. -/
def mantissa? (cs : List Char) : Option Split :=
  let (whole, rest) := digits cs
  let fractional : Option Split := match rest with
    | '.' :: after =>
      let (fraction, left) := digits after
      if fraction.isEmpty then none else some (whole ++ '.' :: fraction, left)
    | _ => none
  fractional <|> if whole.isEmpty then none else some (whole, rest)

/-- The exponent of a number, empty where there is none. -/
def exponent : List Char → Split
  | [] => ([], [])
  | c :: cs =>
    if c == 'e' || c == 'E' then
      let (s, rest) := sign true cs
      let (ds, left) := digits rest
      if ds.isEmpty then ([], c :: cs) else (c :: s ++ ds, left)
    else ([], c :: cs)

def number? (signed : Bool) (cs : List Char) : Option Split :=
  let (s, unsigned) := sign signed cs
  (mantissa? unsigned).map fun (m, rest) =>
    let (e, left) := exponent rest
    (s ++ m ++ e, left)

def doubleOperators : List (List Char) :=
  [['<', '>'], ['!', '='], ['<', '='], ['>', '='], ['|', '|']]

def singleOperators : List Char :=
  ['-', '+', '*', '/', '%', ',', '.', '(', ')', '=', '<', '>', ';']

def operator? : List Char → Option Split
  | [] => none
  | [c] => if singleOperators.contains c then some ([c], []) else none
  | c :: d :: cs =>
    if doubleOperators.contains [c, d] then some ([c, d], cs)
    else if singleOperators.contains c then some ([c], d :: cs)
    else none

/-- The text up to and with the next `*/`. -/
def commentEnd? : List Char → Option Split
  | [] => none
  | '*' :: '/' :: cs => some (['*', '/'], cs)
  | c :: cs => (commentEnd? cs).map fun (taken, rest) => (c :: taken, rest)

def isLineEnd (c : Char) : Bool := c == '\r' || c == '\n'

/-- The rest of a line. A carriage return without a line feed ends no line, and a text where it
comes first has no rest of a line. -/
def lineRest? (cs : List Char) : Option Split :=
  match cs.dropWhile (!isLineEnd ·) with
  | '\r' :: '\n' :: rest => some (cs.takeWhile (!isLineEnd ·), '\r' :: '\n' :: rest)
  | '\r' :: _ => none
  | rest => some (cs.takeWhile (!isLineEnd ·), rest)

/-- Two hyphens start a comment where a blank or the end of the text follows. -/
def lineComment? : List Char → Option Split
  | '#' :: cs => (lineRest? cs).map fun (taken, rest) => ('#' :: taken, rest)
  | '-' :: '-' :: cs =>
    if cs.head?.all isBlank then
      (lineRest? cs).map fun (taken, rest) => ('-' :: '-' :: taken, rest)
    else none
  | _ => none

/-- What stands at the front of a text: a token of some kind, or blanks or a comment. -/
structure Cut where
  kind : Option Kind
  taken : List Char
  rest : List Char

def cut (kind : Option Kind) (s : Split) : Cut := ⟨kind, s.1, s.2⟩

def wordKind (keywords : Keywords) (taken : List Char) : Kind :=
  if keywords.isKeyword (String.ofList taken) then .keyword else .identifier

/-- An opened block comment has to be closed; nothing else starts with its two characters. -/
def scan (keywords : Keywords) (signed : Bool) : List Char → Option Cut
  | '/' :: '*' :: cs =>
    (commentEnd? cs).map fun (taken, rest) => ⟨none, '/' :: '*' :: taken, rest⟩
  | cs =>
    (lineComment? cs).map (cut none)
      <|> (word? cs).map (fun s => cut (some (wordKind keywords s.1)) s)
      <|> (spaces? cs).map (cut none)
      <|> (quotedName? cs).map (cut (some .identifier))
      <|> (number? signed cs).map (cut (some .number))
      <|> (string? cs).map (cut (some .string))
      <|> (operator? cs).map (cut (some .operator))

/-- The scanner's answer on `cs` is a proper division of `cs`. -/
def Divides (cs : List Char) (answer : Option Split) : Prop :=
  ∀ taken rest, answer = some (taken, rest) → taken ++ rest = cs ∧ taken ≠ []

/-- The first scanner with an answer decides. -/
theorem orElse_eq_some {α : Type} {a b : Option α} {x : α} (h : (a <|> b) = some x) :
    a = some x ∨ (a = none ∧ b = some x) := by
  cases a <;> simp_all

theorem word?_divides (cs : List Char) : Divides cs (word? cs) := by
  intro taken rest h
  cases cs <;> simp [word?] at h
  obtain ⟨_, rfl, rfl⟩ := h
  simp

theorem spaces?_divides (cs : List Char) : Divides cs (spaces? cs) := by
  intro taken rest h
  cases cs <;> simp [spaces?] at h
  obtain ⟨_, rfl, rfl⟩ := h
  simp

theorem quotedName?_divides (cs : List Char) : Divides cs (quotedName? cs) := by
  intro taken rest h
  unfold quotedName? at h
  split at h
  · rename_i cs
    split at h
    · rename_i c name q left before after
      simp only [Option.some.injEq, Prod.mk.injEq] at h
      obtain ⟨rfl, rfl⟩ := h
      have whole := List.takeWhile_append_dropWhile (p := (· != '\x60')) (l := cs)
      rw [before, after] at whole
      simp [← whole]
    · simp at h
  · simp at h

theorem closedBy?_append {quote : Char} {cs taken rest : List Char}
    (h : closedBy? quote cs = some (taken, rest)) : taken ++ rest = quote :: cs ∧ taken ≠ [] := by
  unfold closedBy? at h
  split at h
  · rename_i q left after
    simp only [Option.some.injEq, Prod.mk.injEq] at h
    obtain ⟨rfl, rfl⟩ := h
    have whole := List.takeWhile_append_dropWhile (p := (· != quote)) (l := cs)
    rw [after] at whole
    simp [whole]
  · simp at h

theorem string?_divides (cs : List Char) : Divides cs (string? cs) := by
  intro taken rest h
  unfold string? at h
  split at h
  · exact closedBy?_append h
  · exact closedBy?_append h
  · simp at h

theorem sign_append (allowed : Bool) (cs : List Char) :
    (sign allowed cs).1 ++ (sign allowed cs).2 = cs := by
  cases cs with
  | nil => rfl
  | cons c cs => simp only [sign]; split <;> simp

theorem digits_append (cs : List Char) : (digits cs).1 ++ (digits cs).2 = cs := by
  simp [digits]

theorem mantissa?_divides (cs : List Char) : Divides cs (mantissa? cs) := by
  intro taken rest h
  have whole := digits_append cs
  simp only [mantissa?] at h
  rcases orElse_eq_some h with h | ⟨_, h⟩
  · split at h
    · rename_i after starts
      have part := digits_append after
      split at h
      · simp at h
      · simp only [Option.some.injEq, Prod.mk.injEq] at h
        obtain ⟨rfl, rfl⟩ := h
        rw [starts] at whole
        simp [part, whole]
    · simp at h
  · split at h
    · simp at h
    · simp only [Option.some.injEq, Prod.mk.injEq] at h
      obtain ⟨rfl, rfl⟩ := h
      exact ⟨whole, by simp_all⟩

theorem exponent_append (cs : List Char) : (exponent cs).1 ++ (exponent cs).2 = cs := by
  cases cs with
  | nil => rfl
  | cons c cs =>
    simp only [exponent]
    split
    · split
      · simp
      · have a := sign_append true cs
        have b := digits_append (sign true cs).2
        simp [b, a]
    · simp

theorem number?_divides (signed : Bool) (cs : List Char) : Divides cs (number? signed cs) := by
  intro taken rest h
  simp only [number?, Option.map_eq_some_iff, Prod.exists, Prod.mk.injEq] at h
  obtain ⟨m, left, hm, rfl, rfl⟩ := h
  have a := sign_append signed cs
  obtain ⟨b, nonempty⟩ := mantissa?_divides _ m left hm
  have c := exponent_append left
  refine ⟨?_, by simp [nonempty]⟩
  rw [List.append_assoc, List.append_assoc, c, b, a]

theorem operator?_divides (cs : List Char) : Divides cs (operator? cs) := by
  intro taken rest h
  unfold operator? at h
  split at h
  · simp at h
  · split at h <;> simp at h
    obtain ⟨rfl, rfl⟩ := h
    simp
  · split at h
    · simp at h
      obtain ⟨rfl, rfl⟩ := h
      simp
    · split at h <;> simp at h
      obtain ⟨rfl, rfl⟩ := h
      simp

theorem commentEnd?_append (cs : List Char) :
    ∀ taken rest, commentEnd? cs = some (taken, rest) → taken ++ rest = cs := by
  fun_induction commentEnd? cs with
  | case1 => simp
  | case2 cs => intro taken rest h; simp at h; obtain ⟨rfl, rfl⟩ := h; simp
  | case3 c cs _ ih =>
    intro taken rest h
    simp only [Option.map_eq_some_iff, Prod.exists, Prod.mk.injEq] at h
    obtain ⟨t, r, hr, rfl, rfl⟩ := h
    simp [ih t r hr]

theorem lineRest?_append {cs taken rest : List Char} (h : lineRest? cs = some (taken, rest)) :
    taken ++ rest = cs := by
  have whole := List.takeWhile_append_dropWhile (p := (!isLineEnd ·)) (l := cs)
  unfold lineRest? at h
  split at h
  · rename_i left after
    simp only [Option.some.injEq, Prod.mk.injEq] at h
    obtain ⟨rfl, rfl⟩ := h
    rw [← after]; exact whole
  · simp at h
  · simp only [Option.some.injEq, Prod.mk.injEq] at h
    obtain ⟨rfl, rfl⟩ := h
    exact whole

theorem lineComment?_divides (cs : List Char) : Divides cs (lineComment? cs) := by
  intro taken rest h
  unfold lineComment? at h
  split at h
  · simp only [Option.map_eq_some_iff, Prod.exists, Prod.mk.injEq] at h
    obtain ⟨t, r, hr, rfl, rfl⟩ := h
    simp [lineRest?_append hr]
  · split at h
    · simp only [Option.map_eq_some_iff, Prod.exists, Prod.mk.injEq] at h
      obtain ⟨t, r, hr, rfl, rfl⟩ := h
      simp [lineRest?_append hr]
    · simp at h
  · simp at h

theorem Divides.cut {cs : List Char} {answer : Option Split} {kind : Split → Option Kind} {c : Cut}
    (d : Divides cs answer) (h : answer.map (fun s => Scan.cut (kind s) s) = some c) :
    c.taken ++ c.rest = cs ∧ c.taken ≠ [] := by
  obtain ⟨⟨taken, rest⟩, hs, rfl⟩ := Option.map_eq_some_iff.1 h
  exact d taken rest hs

theorem scan_divides {keywords : Keywords} {signed : Bool} {cs : List Char} {c : Cut}
    (h : scan keywords signed cs = some c) : c.taken ++ c.rest = cs ∧ c.taken ≠ [] := by
  unfold scan at h
  split at h
  · simp only [Option.map_eq_some_iff, Prod.exists] at h
    obtain ⟨t, r, hr, rfl⟩ := h
    simp [commentEnd?_append _ t r hr]
  · rcases orElse_eq_some h with h | ⟨_, h⟩
    · exact (lineComment?_divides cs).cut h
    rcases orElse_eq_some h with h | ⟨_, h⟩
    · exact (word?_divides cs).cut h
    rcases orElse_eq_some h with h | ⟨_, h⟩
    · exact (spaces?_divides cs).cut h
    rcases orElse_eq_some h with h | ⟨_, h⟩
    · exact (quotedName?_divides cs).cut h
    rcases orElse_eq_some h with h | ⟨_, h⟩
    · exact (number?_divides signed cs).cut h
    rcases orElse_eq_some h with h | ⟨_, h⟩
    · exact (string?_divides cs).cut h
    · exact (operator?_divides cs).cut h

theorem length_rest_lt {keywords : Keywords} {signed : Bool} {cs : List Char} {c : Cut}
    (h : scan keywords signed cs = some c) : c.rest.length < cs.length := by
  obtain ⟨whole, nonempty⟩ := scan_divides h
  have : c.taken.length ≠ 0 := by simpa using nonempty
  rw [← whole, List.length_append]
  omega

end TableDdl.Scan
