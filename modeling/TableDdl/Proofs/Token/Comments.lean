import TableDdl.Proofs.Token.Continued

/-!
# Comments to the end of the line

A comment that runs to the end of its line ends at a line feed or at the end of the text, and a
carriage return that no line feed follows makes it none. So what such a comment is depends on
what the text goes on with, up to the end of the line.
-/
namespace TableDdl.Scan

open Text

variable {keywords : Keywords} {signed : Bool} {c e : Char}
  {cs x y taken rest front more : List Char}

/-- No line ends within the text. -/
def Unbroken (cs : List Char) : Prop := ∀ d ∈ cs, isLineEnd d = false

/-- A text is one line, or there is a first place where a line ends. -/
theorem unbroken_or (cs : List Char) : Unbroken cs ∨
    ∃ front e more, cs = front ++ e :: more ∧ Unbroken front ∧ isLineEnd e = true := by
  induction cs with
  | nil => exact .inl nofun
  | cons d cs ih =>
    cases ends : isLineEnd d with
    | true => exact .inr ⟨[], d, cs, rfl, nofun, ends⟩
    | false =>
      rcases ih with whole | ⟨front, e, more, rfl, whole, last⟩
      · exact .inl (List.forall_mem_cons.2 ⟨ends, whole⟩)
      · exact .inr ⟨d :: front, e, more, rfl, List.forall_mem_cons.2 ⟨ends, whole⟩, last⟩

theorem lineRest?_of_unbroken (whole : Unbroken cs) : lineRest? cs = some (cs, []) := by
  have all : ∀ d ∈ cs, (!isLineEnd d) = true := fun d hd => by simp [whole d hd]
  obtain ⟨taken, left⟩ := span_append [] all nofun
  rw [List.append_nil] at taken left
  simp [lineRest?, taken, left]

/-- A line ends at a line feed, with or without a carriage return before it. -/
theorem lineRest?_broken (whole : Unbroken front) (ends : isLineEnd e = true) :
    lineRest? (front ++ e :: more) =
      if e = '\r' ∧ more.head? ≠ some '\n' then none else some (front, e :: more) := by
  have all : ∀ d ∈ front, (!isLineEnd d) = true := fun d hd => by simp [whole d hd]
  obtain ⟨taken, left⟩ := span_append (e :: more) all (by simp [ends])
  rw [lineRest?, taken, left]
  have either : e = '\r' ∨ e = '\n' := by simpa [isLineEnd] using ends
  rcases either with rfl | rfl
  · split
    · rename_i same
      obtain ⟨-, rfl⟩ := List.cons.inj same
      simp
    · rename_i other same
      obtain ⟨-, rfl⟩ := List.cons.inj same
      have lone : more.head? ≠ some '\n' := by
        intro first
        cases more with
        | nil => cases first
        | cons d ds => exact other ds (by rw [Option.some.inj first])
      simp [lone]
    · rename_i other
      exact absurd rfl (other more)
  · simp

/-- The rest of a line does not change where the text goes on in another line. -/
theorem lineRest?_steady (last : cs.getLast? ≠ some '\r')
    (ends : x.head? = some '\n' ∨ ∃ d ∈ cs, isLineEnd d = true) : Steady x lineRest? cs := by
  rw [Steady]
  rcases unbroken_or cs with whole | ⟨front, e, more, rfl, whole, atEnd⟩
  · have feed : x.head? = some '\n' := by
      rcases ends with feed | ⟨d, hd, atEnd⟩
      · exact feed
      · simp [whole d hd] at atEnd
    obtain ⟨y, rfl⟩ : ∃ y, x = '\n' :: y := by
      cases x with
      | nil => cases feed
      | cons d y => exact ⟨y, by rw [Option.some.inj feed]⟩
    rw [lineRest?_of_unbroken whole, lineRest?_broken whole (by decide)]
    simp [goOn]
  · have same : e = '\r' ∧ (more ++ x).head? ≠ some '\n' ↔ e = '\r' ∧ more.head? ≠ some '\n' := by
      refine and_congr_right fun isReturn => ?_
      cases more with
      | nil => simp [isReturn] at last
      | cons d ds => rfl
    rw [List.append_assoc, List.cons_append, lineRest?_broken whole atEnd,
      lineRest?_broken whole atEnd]
    simp only [same]
    split <;> rfl

/-- What is the rest of a line within a longer text is one by itself. -/
theorem lineRest?_of_append (found : lineRest? (cs ++ x) = some (taken, rest ++ x))
    (last : x.head? = some '\n' → cs.getLast? ≠ some '\r') : lineRest? cs = some (taken, rest) := by
  have divides := lineRest?_append found
  rw [← List.append_assoc] at divides
  obtain rfl := List.append_cancel_right divides
  rcases unbroken_or (taken ++ rest ++ x) with whole | ⟨front, e, more, same, whole, atEnd⟩
  · rw [lineRest?_of_unbroken whole] at found
    obtain ⟨-, none⟩ := Prod.mk.inj (Option.some.inj found)
    obtain ⟨rfl, rfl⟩ := List.append_eq_nil_iff.1 none.symm
    simp only [List.append_nil] at whole ⊢
    exact lineRest?_of_unbroken whole
  · rw [same, lineRest?_broken whole atEnd] at found
    split at found
    · cases found
    · rename_i feed
      obtain ⟨rfl, left⟩ := Prod.mk.inj (Option.some.inj found)
      cases rest with
      | nil => simpa using lineRest?_of_unbroken whole
      | cons d ds =>
        obtain ⟨rfl, rfl⟩ := List.cons.inj left
        rw [lineRest?_broken whole atEnd, if_neg]
        rintro ⟨rfl, lone⟩
        refine feed ⟨rfl, fun first => ?_⟩
        cases ds with
        | nil => exact last first (by simp)
        | cons d ds => exact lone first

/-- A line that ends after the text takes all of it. -/
theorem lineRest?_of_over (found : lineRest? (cs ++ x) = some (cs ++ y, rest)) :
    lineRest? cs = some (cs, []) := by
  refine lineRest?_of_unbroken fun d hd => ?_
  rcases unbroken_or (cs ++ x) with whole | ⟨front, e, more, same, whole, atEnd⟩
  · exact whole d (List.mem_append_left x hd)
  · rw [same, lineRest?_broken whole atEnd] at found
    split at found
    · cases found
    · obtain ⟨rfl, -⟩ := Prod.mk.inj (Option.some.inj found)
      exact whole d (List.mem_append_left y hd)

/-- What opens a comment, and the text after it. -/
def opener? : List Char → Option Split
  | '#' :: cs => some (['#'], cs)
  | '-' :: '-' :: cs => if cs.head?.all isBlank then some (['-', '-'], cs) else none
  | _ => none

theorem opener?_eq_none (hash : ∀ rest, cs ≠ '#' :: rest)
    (hyphens : ∀ rest, cs ≠ '-' :: '-' :: rest) :
    opener? cs = none := by
  unfold opener?
  split
  · exact absurd rfl (hash _)
  · exact absurd rfl (hyphens _)
  · rfl

theorem lineComment?_eq (cs : List Char) : lineComment? cs =
    (opener? cs).bind fun s => (lineRest? s.2).map fun t => (s.1 ++ t.1, t.2) := by
  unfold lineComment?
  split
  · rfl
  · simp only [opener?]
    split <;> rfl
  · rename_i hash hyphens
    rw [opener?_eq_none hash hyphens]
    rfl

theorem opener?_cases {s : Split} (found : opener? cs = some s) :
    s.1 ++ s.2 = cs ∧ (s.1 = ['#'] ∨ s.1 = ['-', '-'] ∧ s.2.head?.all isBlank = true) := by
  unfold opener? at found
  split at found
  · obtain rfl := Option.some.inj found
    exact ⟨rfl, .inl rfl⟩
  · split at found
    · rename_i blank
      obtain rfl := Option.some.inj found
      exact ⟨rfl, .inr ⟨rfl, blank⟩⟩
    · cases found
  · cases found

/-- Hyphens open a comment or not whatever the text goes on with, unless they are all of it. -/
theorem opener?_steady (hyphen : c :: cs = ['-'] → x.head? ≠ some '-')
    (blank : c :: cs = ['-', '-'] → x.head?.all isBlank = true) : Steady x opener? (c :: cs) := by
  by_cases hash : c = '#'
  · subst hash
    rfl
  by_cases pair : ∃ rest, c :: cs = '-' :: '-' :: rest
  · obtain ⟨rest, same⟩ := pair
    obtain ⟨rfl, rfl⟩ := List.cons.inj same
    have head : (rest ++ x).head?.all isBlank = rest.head?.all isBlank := by
      cases rest with
      | nil => simpa using blank rfl
      | cons d ds => rfl
    simp only [Steady, List.cons_append, opener?, head]
    split <;> rfl
  · have first (more rest : List Char) : c :: more ≠ '#' :: rest := fun same =>
      hash (List.cons.inj same).1
    have longer : ∀ rest, c :: (cs ++ x) ≠ '-' :: '-' :: rest := by
      rintro rest same
      cases cs with
      | nil =>
        rw [List.nil_append] at same
        obtain ⟨rfl, rfl⟩ := List.cons.inj same
        exact hyphen rfl rfl
      | cons d ds =>
        obtain ⟨rfl, later⟩ := List.cons.inj same
        obtain ⟨rfl, -⟩ := List.cons.inj later
        exact pair ⟨ds, rfl⟩
    rw [Steady, List.cons_append, opener?_eq_none (first _) longer,
      opener?_eq_none (first _) (not_exists.1 pair)]
    rfl

/-- What opens a comment in a longer text opens one where the text ends. -/
theorem opener?_of_append {s : Split} (hyphen : x.head? ≠ some '-')
    (found : opener? (c :: cs ++ x) = some s) :
    ∃ rest, s.2 = rest ++ x ∧ opener? (c :: cs) = some (s.1, rest) := by
  by_cases all : c :: cs = ['-', '-']
  · obtain ⟨rfl, rfl⟩ := List.cons.inj all
    have found : (if x.head?.all isBlank then some (['-', '-'], x) else none) = some s := found
    split at found
    · obtain rfl := Option.some.inj found
      exact ⟨[], rfl, rfl⟩
    · cases found
  · rw [opener?_steady (fun _ => hyphen) fun h => absurd h all, Option.map_eq_some_iff] at found
    obtain ⟨t, short, rfl⟩ := found
    exact ⟨t.2, rfl, short⟩

theorem unbroken_opener {s : Split} (found : opener? cs = some s) : Unbroken s.1 := by
  rcases (opener?_cases found).2 with mark | ⟨mark, -⟩ <;> rw [mark, Unbroken] <;> decide

theorem lineComment?_steady (last : (c :: cs).getLast? ≠ some '\r')
    (hyphen : c :: cs = ['-'] → x.head? ≠ some '-')
    (blank : c :: cs = ['-', '-'] → x.head?.all isBlank = true)
    (ends : x.head? = some '\n' ∨ ∃ d ∈ c :: cs, isLineEnd d = true) :
    Steady x lineComment? (c :: cs) := by
  rw [Steady, lineComment?_eq, lineComment?_eq, opener?_steady hyphen blank]
  cases found : opener? (c :: cs) with
  | none => rfl
  | some s =>
    have whole := (opener?_cases found).1
    have steady : lineRest? (s.2 ++ x) = (lineRest? s.2).map (goOn x) := by
      refine lineRest?_steady (fun h => last ?_) (ends.imp_right ?_)
      · rw [← whole, List.getLast?_append, h]
        rfl
      · rintro ⟨d, hd, atEnd⟩
        rw [← whole] at hd
        rcases List.mem_append.1 hd with hd | hd
        · rw [unbroken_opener found d hd] at atEnd
          cases atEnd
        · exact ⟨d, hd, atEnd⟩
    simp only [Option.map_some, Option.bind_some, goOn]
    rw [steady, Option.map_map, Option.map_map]
    rfl

/-- A comment that ends within a text is one where the text ends. -/
theorem lineComment?_of_append (hyphen : x.head? ≠ some '-')
    (found : lineComment? (c :: cs ++ x) = some (taken, rest ++ x))
    (last : x.head? = some '\n' → (c :: cs).getLast? ≠ some '\r') :
    lineComment? (c :: cs) = some (taken, rest) := by
  rw [lineComment?_eq, Option.bind_eq_some_iff] at found
  obtain ⟨⟨mark, _⟩, opened, body⟩ := found
  obtain ⟨left, rfl, short⟩ := opener?_of_append hyphen opened
  obtain ⟨⟨t, _⟩, line, same⟩ := Option.map_eq_some_iff.1 body
  obtain ⟨rfl, rfl⟩ := Prod.mk.inj same
  have ends : x.head? = some '\n' → left.getLast? ≠ some '\r' := by
    intro feed isReturn
    refine last feed ?_
    rw [← (opener?_cases short).1, List.getLast?_append, isReturn]
    rfl
  rw [lineComment?_eq, short, Option.bind_some, lineRest?_of_append line ends]
  rfl

/-- A comment that ends after a text takes all of it. -/
theorem lineComment?_of_over (hyphen : x.head? ≠ some '-')
    (found : lineComment? (c :: cs ++ x) = some (c :: cs ++ y, rest)) :
    lineComment? (c :: cs) = some (c :: cs, []) := by
  rw [lineComment?_eq, Option.bind_eq_some_iff] at found
  obtain ⟨⟨mark, _⟩, opened, body⟩ := found
  obtain ⟨left, rfl, short⟩ := opener?_of_append hyphen opened
  obtain ⟨⟨t, _⟩, line, same⟩ := Option.map_eq_some_iff.1 body
  obtain ⟨whole, rfl⟩ := Prod.mk.inj same
  have parts : mark ++ left = c :: cs := (opener?_cases short).1
  rw [← parts, List.append_assoc] at whole
  obtain rfl := List.append_cancel_left whole
  rw [lineComment?_eq, short, Option.bind_some, lineRest?_of_over line, ← parts]
  rfl

/-- Without a comment, nothing starts with a number sign. -/
theorem scan_hash (comment : lineComment? ('#' :: cs) = none) :
    scan keywords signed ('#' :: cs) = none := by
  rw [scan_of_not_encloses (by simp [Encloses]), comment, word?_eq_none (by decide),
    spaces?_eq_none (by decide), operator?_eq_none (by decide),
    number?_eq_none (by decide) (fun h => absurd h (by decide)) fun h => absurd h (by decide)]
  rfl

/-- Without a comment or a number, a hyphen is an operator. -/
theorem scan_hyphen (comment : lineComment? ('-' :: cs) = none)
    (next : ∀ d ∈ cs.head?, d.isDigit = false ∧ d ≠ '.') :
    scan keywords signed ('-' :: cs) = some ⟨some .operator, ['-'], cs⟩ := by
  have operator : operator? ('-' :: cs) = some (['-'], cs) := by
    cases cs with
    | nil => rfl
    | cons d ds => simp [operator?, doubleOperators, singleOperators]
  have number : number? signed ('-' :: cs) = none :=
    number?_eq_none (by decide) (fun h => absurd h (by decide)) fun _ => next
  rw [scan_of_not_encloses (by simp [Encloses]), comment, word?_eq_none (by decide),
    spaces?_eq_none (by decide), number, operator]
  rfl

/-- What reads as a comment where the text ends is one where the text goes on with `x`. -/
def KeepsComment (x cs : List Char) : Prop :=
  (lineComment? cs).isSome = true → (lineComment? (cs ++ x)).isSome = true

theorem scan_of_lineComment? {s : Split} (found : lineComment? cs = some s) :
    scan keywords signed cs = some (cut none s) := by
  unfold scan
  split
  · cases found
  · rw [found]
    rfl

/-- A cut that ends within a text is made where the text ends. -/
theorem scan_shorten {kind : Option Kind} (stops : Stops x) (solid : isSpace c = false)
    (keeps : KeepsComment x (c :: cs)) (last : x.head? = some '\n' → (c :: cs).getLast? ≠ some '\r')
    (found : scan keywords signed (c :: cs ++ x) = some ⟨kind, taken, rest ++ x⟩) :
    scan keywords signed (c :: cs) = some ⟨kind, taken, rest⟩ := by
  have hyphen : x.head? ≠ some '-' := stops.head_ne (.inr (by decide))
  have steady : Steady x lineComment? (c :: cs) := by
    rw [Steady]
    cases comment : lineComment? (c :: cs ++ x) with
    | none =>
      have none : lineComment? (c :: cs) = none := by
        cases short : lineComment? (c :: cs) with
        | none => rfl
        | some s =>
          have longer := keeps (by rw [short]; rfl)
          rw [comment] at longer
          cases longer
      rw [none]
      rfl
    | some s =>
      obtain ⟨_, _⟩ := s
      rw [scan_of_lineComment? comment] at found
      obtain ⟨-, rfl, rfl⟩ := Cut.mk.inj (Option.some.inj found)
      rw [lineComment?_of_append hyphen comment last]
      rfl
  exact (scan_goOn_iff (stops.steadily steady) solid).1 found

/-- What a scanner takes regardless of `x` is no more than the text before it. -/
theorem Steady.within {scanner : List Char → Option Split} (steady : Steady x scanner cs)
    (divides : Divides cs (scanner cs)) (found : scanner (cs ++ x) = some (cs ++ y, rest)) :
    y = [] := by
  rw [steady, Option.map_eq_some_iff] at found
  obtain ⟨⟨taken, left⟩, short, same⟩ := found
  obtain ⟨rfl, -⟩ := Prod.mk.inj same
  have whole := (divides _ _ short).1
  rw [List.append_assoc, List.append_right_eq_self, List.append_eq_nil_iff] at whole
  exact whole.1

/-- A cut that ends after a text ends with a closing mark, or it is a comment and takes all. -/
theorem scan_over {kind : Option Kind} (stops : Stops x) (solid : isSpace c = false) (more : y ≠ [])
    (found : scan keywords signed (c :: cs ++ x) = some ⟨kind, c :: cs ++ y, rest⟩) :
    (∃ body e, c :: cs ++ y = body ++ [e] ∧ e ∈ ['\x60', '\x27', '"', '/']) ∨
      kind = none ∧ scan keywords signed (c :: cs) = some ⟨none, c :: cs, []⟩ := by
  have ended {scanner : List Char → Option Split} {kinds : Split → Option Kind}
      (steady : Steady x scanner (c :: cs)) (divides : Divides (c :: cs) (scanner (c :: cs)))
      (answer : (scanner (c :: cs ++ x)).map (fun s => cut (kinds s) s) =
        some ⟨kind, c :: cs ++ y, rest⟩) : False := by
    obtain ⟨s, found, same⟩ := Option.map_eq_some_iff.1 answer
    obtain ⟨-, first, -⟩ := Cut.mk.inj same
    exact more (steady.within divides (by rw [found, ← first]))
  by_cases mark : Encloses c (cs ++ x)
  · rw [List.cons_append, scan_of_encloses mark] at found
    exact .inl (enclosed?_retake found).2
  · rw [List.cons_append, scan_of_not_encloses mark] at found
    rcases orElse_eq_some found with comment | ⟨-, found⟩
    · obtain ⟨⟨_, _⟩, line, same⟩ := Option.map_eq_some_iff.1 comment
      obtain ⟨rfl, rfl, rfl⟩ := Cut.mk.inj same
      have short := lineComment?_of_over (stops.head_ne (.inr (by decide))) line
      exact .inr ⟨rfl, scan_of_lineComment? short⟩
    rcases orElse_eq_some found with word | ⟨-, found⟩
    · exact (ended (word?_steady stops) (word?_divides _) word).elim
    rcases orElse_eq_some found with spaces | ⟨-, found⟩
    · rw [spaces?_eq_none solid] at spaces
      cases spaces
    rcases orElse_eq_some found with number | ⟨-, operator⟩
    · exact (ended (number?_steady stops signed _) (number?_divides signed _) number).elim
    · exact (ended (operator?_steady stops) (operator?_divides _) operator).elim

end TableDdl.Scan
