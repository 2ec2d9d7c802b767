import Mathlib.Data.List.DropRight
import TableDdl.Proofs.Script.Consecutive
import TableDdl.Proofs.Token.Signs

/-!
# A session prints what its script prints

A session gathers lines until one of them ends with a semicolon, and runs what it has. Where each
such semicolon is a token of the whole text, what comes out is what the text as one script gives,
up to the last such line. The session drops empty lines in front of a script; a line that does not
end with a semicolon keeps what is gathered open.
-/
namespace TableDdl

open Scan Text

namespace Session

variable {keywords : Keywords} {format : Format} {p : Position} {l cs : List Char}
  {ls pending : List (List Char)} {ts : List Token}

/-- The lines of a text, without their line feeds. -/
def textLines : List Char → List (List Char)
  | [] => []
  | c :: cs =>
    if c = '\n' then [] :: textLines cs
    else match textLines cs with
      | [] => [[c]]
      | line :: lines => (c :: line) :: lines

/-- Whether a session runs what it has gathered at the end of the line. -/
def closes (line : List Char) : Bool := (trim line).getLast? == some ';'

/-- The offsets of the semicolons at the ends of lines, where the first line is at `start`. -/
def closings (start : Nat) : List (List Char) → List Nat
  | [] => []
  | line :: lines =>
    let rest := closings (start + byteLength line + 1) lines
    if closes line then (start + byteLength (trimRight line).dropLast) :: rest else rest

/-- The lines up to the last one that ends with a semicolon. -/
def closedLines (lines : List (List Char)) : List (List Char) := lines.rdropWhile (!closes ·)

/-- The text of lines, with line feeds between them. -/
def joined (lines : List (List Char)) : List Char := ['\n'].intercalate lines

/-- The text of lines with a line feed after each of them. -/
def fed (lines : List (List Char)) : List Char := lines.flatMap (· ++ ['\n'])

/-- What a session has gathered from lines. -/
def gathered (lines : List (List Char)) : String :=
  lines.foldl (fun buffer line => appendLine buffer (String.ofList line)) ""

/-- The lines that are run together, where some are pending. -/
def batches (pending : List (List Char)) : List (List Char) → List (List (List Char))
  | [] => []
  | line :: lines =>
    if closes line then (pending ++ [line]) :: batches [] lines
    else batches (pending ++ [line]) lines

theorem textLines_feed (line : '\n' ∉ l) (cs : List Char) :
    textLines (l ++ '\n' :: cs) = l :: textLines cs := by
  induction l with
  | nil => simp [textLines]
  | cons c l ih =>
    obtain ⟨first, others⟩ := not_or.1 (List.mem_cons.not.1 line)
    rw [List.cons_append, textLines, if_neg (Ne.symm first), ih others]

theorem textLines_last (line : '\n' ∉ l) (some : l ≠ []) : textLines l = [l] := by
  induction l with
  | nil => exact absurd rfl some
  | cons c l ih =>
    obtain ⟨first, others⟩ := not_or.1 (List.mem_cons.not.1 line)
    rw [textLines, if_neg (Ne.symm first)]
    cases l with
    | nil => rfl
    | cons d l => rw [ih others (List.cons_ne_nil d l)]

/-- A text has no lines, or a first one, which ends with a line feed or with the text. -/
theorem textLines_cases (cs : List Char) : cs = [] ∨
    (∃ line rest, cs = line ++ '\n' :: rest ∧ textLines cs = line :: textLines rest) ∨
      textLines cs = [cs] := by
  by_cases broken : '\n' ∈ cs
  · obtain ⟨line, rest, rfl, free⟩ := List.eq_append_cons_of_mem broken
    exact .inr (.inl ⟨line, rest, rfl, textLines_feed free rest⟩)
  · by_cases empty : cs = []
    · exact .inl empty
    · exact .inr (.inr (textLines_last broken empty))

theorem joined_append {more : List (List Char)} (some : more ≠ []) :
    joined (ls ++ more) = fed ls ++ joined more := by
  induction ls with
  | nil => rfl
  | cons l ls ih =>
    obtain ⟨l', ls', isMore⟩ := List.exists_cons_of_ne_nil (List.append_ne_nil_of_right_ne_nil ls some)
    have step : joined (l :: (ls ++ more)) = l ++ ['\n'] ++ joined (ls ++ more) := by
      rw [isMore, joined, joined, List.intercalate_cons_cons, List.append_assoc]
    simp only [List.cons_append, step, ih, fed, List.flatMap_cons, List.append_assoc]

theorem joined_concat (ls : List (List Char)) (l : List Char) :
    joined (ls ++ [l]) = fed ls ++ l := by
  rw [joined_append (List.cons_ne_nil l []), joined, List.intercalate_singleton]

theorem fed_concat (ls : List (List Char)) (l : List Char) :
    fed (ls ++ [l]) = fed ls ++ (l ++ ['\n']) := by
  simp [fed]

theorem fed_eq (some : ls ≠ []) : fed ls = joined ls ++ ['\n'] := by
  obtain ⟨front, last, rfl⟩ := (List.eq_nil_or_concat' ls).resolve_left some
  rw [fed_concat, joined_concat, List.append_assoc]

theorem gathered_concat (ls : List (List Char)) (l : List Char) :
    gathered (ls ++ [l]) = appendLine (gathered ls) (String.ofList l) := by
  simp [gathered]

/-- A session drops the empty lines in front. -/
theorem exists_joined_eq (ls : List (List Char)) :
    ∃ n, joined ls = List.replicate n '\n' ++ (gathered ls).toList := by
  induction ls using List.reverseRecOn with
  | nil => exact ⟨0, rfl⟩
  | append_singleton ls l ih =>
    obtain ⟨n, parts⟩ := ih
    rw [joined_concat, gathered_concat]
    by_cases none : ls = []
    · subst none
      exact ⟨0, (String.toList_ofList).symm⟩
    rw [fed_eq none, parts]
    by_cases empty : gathered ls = ""
    · refine ⟨n + 1, ?_⟩
      simp [empty, appendLine, List.replicate_succ']
    · refine ⟨n, ?_⟩
      simp [empty, appendLine]

/-- A session runs its batches one by one, and drops what is pending at the end. -/
theorem run_eq_flatMap (stays : ∀ line ∈ ls,
      String.ofList (trim line) ≠ "quit" ∧ String.ofList (trim line) ≠ "exit") :
    (run keywords format (gathered pending) (ls.map fun line => .ok (String.ofList line))).lines =
      (batches pending ls).flatMap fun batch => Script.run keywords format (gathered batch) := by
  induction ls generalizing pending with
  | nil => rfl
  | cons line ls ih =>
    obtain ⟨⟨quit, exit⟩, others⟩ := List.forall_mem_cons.1 stays
    have goOn (buffer : String) : (buffer.isEmpty && (String.ofList (trim line) == "quit" ||
        String.ofList (trim line) == "exit")) = false := by
      simp [quit, exit]
    rw [List.map_cons, run]
    simp only [String.toList_ofList, goOn, Bool.false_eq_true, if_false, ← gathered_concat]
    by_cases last : closes line = true
    · rw [batches, if_pos last, List.flatMap_cons]
      rw [closes] at last
      rw [if_pos last, Report.after]
      exact congrArg (Script.run keywords format (gathered (pending ++ [line])) ++ ·) (@ih [] others)
    · rw [batches, if_neg last]
      rw [closes] at last
      rw [if_neg last]
      exact ih others

theorem flatten_batches (opens : ∀ line ∈ pending, closes line = false) :
    (batches pending ls).flatten = closedLines (pending ++ ls) := by
  induction ls generalizing pending with
  | nil =>
    rw [List.append_nil]
    refine (List.rdropWhile_eq_nil_iff.2 fun line hl => ?_).symm
    rw [opens line hl]
    rfl
  | cons line ls ih =>
    have whole : pending ++ line :: ls = pending ++ [line] ++ ls := by simp
    cases last : closes line with
    | true =>
      have whole_kept : (pending ++ [line]).rdropWhile (!closes ·) = pending ++ [line] :=
        List.rdropWhile_concat_neg _ _ _ (by simp [last])
      rw [batches, if_pos last, List.flatten_cons, ih (List.forall_mem_nil _), List.nil_append,
        whole, closedLines, closedLines]
      rw [List.rdropWhile] at whole_kept ⊢
      rw [List.rdropWhile, List.reverse_append, List.dropWhile_append]
      split
      · rename_i none
        rw [List.isEmpty_iff.1 none, whole_kept]
        simp
      · simp
    | false =>
      rw [batches, if_neg (by simp [last]), whole]
      refine ih (List.forall_mem_append.2 ⟨opens, ?_⟩)
      exact List.forall_mem_singleton.2 last

/-- Where a line ends with a semicolon, up to blanks. -/
theorem exists_of_closes (last : closes l = true) : ∃ m w, l = m ++ ';' :: w ∧
    (trimRight l).dropLast = m ∧ ∀ d ∈ w, isBlank d = true := by
  obtain ⟨before, after, whole, -, blank⟩ := trim_append l
  rw [closes, beq_iff_eq] at last
  obtain ⟨m, isTrim⟩ := List.getLast?_eq_some_iff.1 last
  rw [List.all_eq_true] at blank
  rw [isTrim] at whole
  have parts : l = before ++ m ++ [';'] ++ after := by simp [← whole]
  have solid : EndsSolid (before ++ m ++ [';']) := by
    intro d hd
    rw [List.getLast?_concat] at hd
    obtain rfl := Option.some.inj hd
    decide
  refine ⟨before ++ m, after, by simp [parts], ?_, blank⟩
  rw [parts, trimRight_append_blank blank, trimRight_eq_self solid, List.dropLast_concat]

theorem eq_of_byteLength_eq {a b x y : List Char} (same : a ++ x = b ++ y)
    (long : byteLength a = byteLength b) : a = b := by
  rw [← takeBytes_byteLength_append a x, same, long, takeBytes_byteLength_append]

/-- A semicolon token at the end of a line divides the text after the line. -/
theorem lexes_of_closing {body w back : List Char} {t : Token} (isSemi : t.isSemicolon = true)
    (mem : t ∈ ts) (place : t.position.offset = p.offset + byteLength body)
    (blank : ∀ d ∈ w, isBlank d = true) (free : '\r' ∉ body ++ ';' :: w)
    (h : Lexes .mysql true p (body ++ ';' :: (w ++ '\n' :: back)) ts) :
    ∃ g later, ts = g ++ t :: later ∧ Lexes .mysql true p (body ++ ';' :: w) (g ++ [t]) ∧
      Lexes .mysql true (p.after (body ++ ';' :: (w ++ ['\n']))) back later := by
  obtain ⟨g, later, rfl⟩ := List.append_of_mem mem
  obtain ⟨body', rest, parts, rfl, after, front⟩ := h.divide isSemi
  rw [Position.offset_after] at place
  obtain rfl : body = body' := eq_of_byteLength_eq parts (by omega)
  obtain ⟨-, rfl⟩ := List.cons.inj (List.append_cancel_left parts)
  have spaces : Lexes .mysql true (p.after (body ++ [';'])) (w ++ []) [] :=
    Lexes.spaces (after.isSpace_of_blank blank) .done
  rw [List.append_nil] at spaces
  have short : LexesBefore .mysql (';' :: w) true p body g :=
    LexesBefore.shorten front (steadyWithin_feed free)
  refine ⟨g, later, rfl, short.followed spaces, ?_⟩
  have blanks : ∀ d ∈ w ++ ['\n'], isBlank d = true :=
    List.forall_mem_append.2 ⟨blank, by decide⟩
  have rest : Lexes .mysql true (p.after (body ++ [';'])) (w ++ ['\n'] ++ back) later := by
    simpa using after
  have left := rest.trimFront blanks
  rwa [← Position.after_append, List.append_assoc] at left

theorem le_of_mem_closings {start n : Nat} (mem : n ∈ closings start ls) : start ≤ n := by
  induction ls generalizing start with
  | nil => cases mem
  | cons line ls ih =>
    have later (rest : n ∈ closings (start + byteLength line + 1) ls) : start ≤ n := by
      have low := ih rest
      omega
    rw [closings] at mem
    split at mem
    · rcases List.mem_cons.1 mem with rfl | rest
      · exact Nat.le_add_right ..
      · exact later rest
    · exact later mem

theorem run_gathered (keywords : Keywords) (format : Format)
    (h : Lexes .mysql true p (joined ls) ts) :
    Script.run keywords format (String.ofList (joined ls)) =
      Script.run keywords format (gathered ls) := by
  obtain ⟨n, parts⟩ := exists_joined_eq ls
  have blank : ∀ d ∈ List.replicate n '\n', isBlank d = true := by
    intro d hd
    rw [List.eq_of_mem_replicate hd]
    decide
  rw [parts] at h
  obtain ⟨pieces, all, alone⟩ := Script.exists_split_lead blank h
  rw [← parts] at all
  rw [String.ofList_toList] at alone
  rw [Script.run, Script.run, Script.parse, Script.parse, all, alone]

/-- The batches after one another are a script that has the statements of each of them. -/
structure RunTogether (keywords : Keywords) (format : Format)
    (batches : List (List (List Char))) : Prop where
  tokens : ∃ ts, Lexes .mysql true .start (joined batches.flatten) ts
  run : Script.run keywords format (String.ofList (joined batches.flatten)) =
    batches.flatMap fun batch => Script.run keywords format (gathered batch)

namespace RunTogether

theorem nil (keywords : Keywords) (format : Format) : RunTogether keywords format [] where
  tokens := ⟨[], .done⟩
  run := by
    have empty : Lexes .mysql true .start [] [] := .done
    have none : Script.split (String.ofList (joined [])) = .ok [] := Script.split_of_lexes empty
    rw [List.flatten_nil, Script.run, Script.parse, none]
    rfl

theorem single {batch : List (List Char)} (h : Lexes .mysql true p (joined batch) ts) :
    RunTogether keywords format [batch] := by
  obtain ⟨us, lexes, -⟩ := h.displaced .start
  have flat : [batch].flatten = batch := List.flatten_singleton
  refine ⟨⟨us, by rwa [flat]⟩, ?_⟩
  rw [flat, run_gathered keywords format h, List.flatMap_singleton]

/-- A batch that ends with a semicolon, and those after it. -/
theorem cons {batch : List (List Char)} {more : List (List (List Char))} {body w : List Char}
    {g : List Token} {semi : Token} (text : joined batch = body ++ ';' :: w)
    (isSemi : semi.isSemicolon = true) (blank : ∀ d ∈ w, isBlank d = true)
    (h : Lexes .mysql true p (joined batch) (g ++ [semi]))
    (place : semi.position.offset = p.offset + byteLength body) (free : '\r' ∉ joined batch)
    (rest : RunTogether keywords format more) : RunTogether keywords format (batch :: more) := by
  obtain ⟨⟨us, lexes⟩, run⟩ := rest
  have first := run_gathered keywords format h
  by_cases none : more.flatten = []
  · have nothing : more.flatMap (fun batch => Script.run keywords format (gathered batch)) = [] := by
      rw [← run, none]
      exact (nil keywords format).run
    have flat : (batch :: more).flatten = batch := by rw [List.flatten_cons, none, List.append_nil]
    obtain ⟨ts, moved, -⟩ := h.displaced .start
    refine ⟨⟨ts, by rwa [flat]⟩, ?_⟩
    rw [flat, List.flatMap_cons, nothing, List.append_nil, first]
  · have some : batch ≠ [] := by
      rintro rfl
      simp [joined] at text
    have whole : joined (batch :: more).flatten = body ++ ';' :: w ++ '\n' :: joined more.flatten := by
      rw [List.flatten_cons, joined_append none, fed_eq some, text]
      simp
    rw [text] at h free
    obtain ⟨tokens, pieces, pieces', front, back, both⟩ :=
      Script.split_append isSemi blank h place free lexes
    rw [← whole] at tokens both
    refine ⟨tokens, ?_⟩
    rw [Script.run_append front back both, List.flatMap_cons, ← run, ← first, text]

end RunTogether

/-- All lines end with semicolons that are tokens, if they end with semicolons. -/
def Divided (start : Nat) (lines : List (List Char)) (ts : List Token) : Prop :=
  ∀ n ∈ closings start lines, ∃ t ∈ ts, t.isSemicolon = true ∧ t.position.offset = n

/-- A line that ends with a semicolon divides the text after it. -/
theorem divided_of_closes {line rest : List Char} (last : closes line = true)
    (h : Lexes .mysql true p (fed pending ++ (line ++ '\n' :: rest)) ts)
    (free : '\r' ∉ fed pending ++ line)
    (divided : Divided (p.offset + byteLength (fed pending)) (line :: textLines rest) ts) :
    ∃ body w g t q later, joined (pending ++ [line]) = body ++ ';' :: w ∧
      t.isSemicolon = true ∧ (∀ d ∈ w, isBlank d = true) ∧
      Lexes .mysql true p (joined (pending ++ [line])) (g ++ [t]) ∧
      t.position.offset = p.offset + byteLength body ∧
      Lexes .mysql true q rest later ∧ Divided q.offset (textLines rest) later := by
  obtain ⟨m, w, rfl, offset, blank⟩ := exists_of_closes last
  rw [Divided, closings, if_pos last, offset] at divided
  obtain ⟨t, mem, isSemi, place⟩ := divided _ List.mem_cons_self
  obtain ⟨body, isBody⟩ : ∃ body, fed pending ++ m = body := ⟨_, rfl⟩
  have text : fed pending ++ (m ++ ';' :: w ++ '\n' :: rest) = body ++ ';' :: (w ++ '\n' :: rest) := by
    simp [← isBody]
  have batch_text : joined (pending ++ [m ++ ';' :: w]) = body ++ ';' :: w := by
    rw [joined_concat, ← isBody, List.append_assoc]
  have place' : t.position.offset = p.offset + byteLength body := by
    rw [place, ← isBody, byteLength_append, Nat.add_assoc]
  rw [text] at h
  rw [← joined_concat, batch_text] at free
  obtain ⟨g, later, rfl, batch, after⟩ := lexes_of_closing isSemi mem place' blank free h
  refine ⟨body, w, g, t, _, later, batch_text, isSemi, blank, by rwa [batch_text], place', after, ?_⟩
  have start : (p.after (body ++ ';' :: (w ++ ['\n']))).offset =
      p.offset + byteLength (fed pending) + byteLength (m ++ ';' :: w) + 1 := by
    have feed : '\n'.utf8Size = 1 := rfl
    simp only [Position.offset_after, ← isBody, byteLength_append, byteLength_cons,
      byteLength_nil, feed]
    omega
  intro n hn
  rw [start] at hn
  obtain ⟨u, mem, found⟩ := divided n (List.mem_cons_of_mem _ hn)
  refine ⟨u, ?_, found⟩
  rw [List.append_cons] at mem
  refine (List.mem_append.1 mem).resolve_left fun early => ?_
  -- The tokens of the batch stand before the next line.
  have low := le_of_mem_closings hn
  have high := (batch.offset_le u early).2
  rw [← isBody, List.append_assoc, byteLength_append] at high
  omega

/-- What is pending and the lines of the text after it are run together. -/
theorem runTogether_batches (h : Lexes .mysql true p (fed pending ++ cs) ts)
    (free : '\r' ∉ fed pending ++ cs)
    (divided : Divided (p.offset + byteLength (fed pending)) (textLines cs) ts) :
    RunTogether keywords format (batches pending (textLines cs)) := by
  -- On what is left of the text. The lines since the last batch are pending.
  induction length : cs.length using Nat.strongRecOn generalizing pending p cs ts with
  | ind n ih =>
    rcases textLines_cases cs with rfl | ⟨line, rest, rfl, lines⟩ | lines
    · exact .nil ..
    · have shorter : rest.length < n := by
        rw [← length, List.length_append, List.length_cons]
        omega
      rw [lines] at divided ⊢
      cases last : closes line with
      | false =>
        have text : fed (pending ++ [line]) ++ rest = fed pending ++ (line ++ '\n' :: rest) := by
          simp [fed_concat]
        have start : p.offset + byteLength (fed (pending ++ [line])) =
            p.offset + byteLength (fed pending) + byteLength line + 1 := by
          rw [fed_concat, byteLength_append, byteLength_append, Nat.add_assoc, Nat.add_assoc]
          rfl
        rw [Divided, closings, if_neg (by simp [last]), ← start] at divided
        rw [batches, if_neg (by simp [last])]
        rw [← text] at h free
        exact ih _ shorter h free divided rfl
      | true =>
        have free_line : '\r' ∉ fed pending ++ line := by
          rw [← List.append_assoc] at free
          exact fun here => free (List.mem_append_left _ here)
        have free_rest : '\r' ∉ fed [] ++ rest := fun here =>
          free (List.mem_append_right _ (List.mem_append_right _ (List.mem_cons_of_mem _ here)))
        obtain ⟨body, w, g, t, q, later, text, isSemi, blank, batch, place, after, divided⟩ :=
          divided_of_closes last h free_line divided
        rw [batches, if_pos last]
        rw [← joined_concat] at free_line
        exact .cons text isSemi blank batch place free_line
          (ih _ shorter after free_rest divided rfl)
    · rw [lines]
      cases last : closes cs with
      | false =>
        rw [batches, if_neg (by simp [last])]
        exact .nil ..
      | true =>
        rw [batches, if_pos last]
        exact .single (by rwa [joined_concat])

/-- A session prints on the lines of a text what the text prints as one script, up to the last
line that ends with a semicolon. The tokens of the text may be those under any table. -/
theorem lines_run_eq {text : String} {table : Keywords} (keywords : Keywords) (format : Format)
    (cut : tokenize table text = .ok ts) (free : '\r' ∉ text.toList)
    (stays : ∀ line ∈ textLines text.toList,
      String.ofList (trim line) ≠ "quit" ∧ String.ofList (trim line) ≠ "exit")
    (divided : ∀ n ∈ closings 0 (textLines text.toList),
      ∃ t ∈ ts, t.isSemicolon = true ∧ t.position.offset = n) :
    (run keywords format "" ((textLines text.toList).map fun line =>
        .ok (String.ofList line))).lines =
      Script.run keywords format
        (String.ofList (joined (closedLines (textLines text.toList)))) := by
  obtain ⟨us, lexes, semis⟩ := (lexes_of_tokenize cut).semicolons .mysql true
  have divided : Divided (Position.start.offset + byteLength (fed []))
      (textLines text.toList) us := by
    intro n hn
    obtain ⟨t, mem, isSemi, place⟩ := divided n hn
    exact ⟨t, semis t mem isSemi, isSemi, place⟩
  have start : fed [] ++ text.toList = text.toList := List.nil_append _
  have together : RunTogether keywords format (batches [] (textLines text.toList)) :=
    runTogether_batches (start ▸ lexes) (start ▸ free) divided
  have flat : (batches [] (textLines text.toList)).flatten = closedLines (textLines text.toList) :=
    flatten_batches (List.forall_mem_nil _)
  have batchwise : (run keywords format (gathered []) ((textLines text.toList).map fun line =>
      .ok (String.ofList line))).lines = (batches [] (textLines text.toList)).flatMap fun batch =>
        Script.run keywords format (gathered batch) := run_eq_flatMap stays
  rw [← flat, together.run]
  exact batchwise

/-- A comment and an empty line stand within statements, and one statement is wrong. -/
theorem lines_run_eq_comment :
    (run .mysql .sql "" [.ok "", .ok "ALTER TABLE t # ;'", .ok " DROP x; b; ", .ok "", .ok "c",
        .ok ";", .ok "y"]).lines =
      Script.run .mysql .sql "\nALTER TABLE t # ;'\n DROP x; b; \n\nc\n;" := by
  have cut : tokenize .mysql "\nALTER TABLE t # ;'\n DROP x; b; \n\nc\n;\ny" = .ok [
      ⟨.keyword, "ALTER", ⟨1, 2, 1⟩⟩, ⟨.keyword, "TABLE", ⟨7, 2, 7⟩⟩,
      ⟨.identifier, "t", ⟨13, 2, 13⟩⟩, ⟨.keyword, "DROP", ⟨21, 3, 2⟩⟩,
      ⟨.identifier, "x", ⟨26, 3, 7⟩⟩, ⟨.operator, ";", ⟨27, 3, 8⟩⟩,
      ⟨.identifier, "b", ⟨29, 3, 10⟩⟩, ⟨.operator, ";", ⟨30, 3, 11⟩⟩,
      ⟨.identifier, "c", ⟨34, 5, 1⟩⟩, ⟨.operator, ";", ⟨36, 6, 1⟩⟩,
      ⟨.identifier, "y", ⟨38, 7, 1⟩⟩] :=
    Parser.eq_ok_of_toOption (by decide +kernel)
  exact lines_run_eq .mysql .sql cut (by decide) (by decide +kernel) (by decide +kernel)

end Session
end TableDdl
