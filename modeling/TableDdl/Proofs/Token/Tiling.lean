import TableDdl.Proofs.RoundTrip.Parsing
import TableDdl.Proofs.Token.Appended

/-!
# The tokens tile the text

What stands between the tokens of a text, before the first and after the last one, is blanks and
comments and nothing else. Where no tokens come out, that holds of the text up to the place of the
error. Main statement: each token is the part of the text at its offset, and its place is where
the text before it ends.
-/
namespace TableDdl

open Scan Text

variable {keywords : Keywords} {signed : Bool} {p : Position}
  {cs before front first taken rest : List Char} {ts : List Token}

namespace Scan

/-- A line ends at the front of the text, or the text does. -/
def EndsLine (rest : List Char) : Prop := rest = [] ∨ ['\n'] <+: rest ∨ ['\r', '\n'] <+: rest

/-- Blanks or a comment, where the text goes on with `rest`. -/
inductive Filler (rest : List Char) : List Char → Prop
  | blanks {cs : List Char} (some : cs ≠ []) (blank : ∀ c ∈ cs, isSpace c = true) : Filler rest cs
  | block {body : List Char} (closed : ¬ ['*', '/'] <:+: body) :
    Filler rest ('/' :: '*' :: (body ++ ['*', '/']))
  | hash {body : List Char} (whole : Unbroken body) (ends : EndsLine rest) :
    Filler rest ('#' :: body)
  | hyphens {body : List Char} (opens : (body ++ rest).head?.all isBlank = true)
    (whole : Unbroken body) (ends : EndsLine rest) : Filler rest ('-' :: '-' :: body)

theorem exists_of_commentEnd? (found : commentEnd? cs = some (taken, rest)) :
    ∃ body, taken = body ++ ['*', '/'] ∧ ¬ ['*', '/'] <:+: body := by
  fun_induction commentEnd? cs generalizing taken with
  | case1 => cases found
  | case2 cs =>
    obtain ⟨rfl, -⟩ := Prod.mk.inj (Option.some.inj found)
    exact ⟨[], rfl, by decide⟩
  | case3 c cs early ih =>
    obtain ⟨⟨later, left⟩, end?, same⟩ := Option.map_eq_some_iff.1 found
    obtain ⟨rfl, rfl⟩ := Prod.mk.inj same
    obtain ⟨body, rfl, closed⟩ := ih end?
    refine ⟨c :: body, rfl, fun within => ?_⟩
    rcases List.infix_cons_iff.1 within with ⟨tail, mark⟩ | within
    · obtain ⟨rfl, slash⟩ := List.cons.inj mark
      refine early (tail ++ ['*', '/'] ++ left) rfl ?_
      rw [← commentEnd?_append cs _ _ end?, ← slash]
      simp
    · exact closed within

theorem endsLine_of_lineRest? (found : lineRest? cs = some (taken, rest)) :
    Unbroken taken ∧ EndsLine rest := by
  rcases unbroken_or cs with whole | ⟨front, e, more, rfl, whole, atEnd⟩
  · rw [lineRest?_of_unbroken whole] at found
    obtain ⟨rfl, rfl⟩ := Prod.mk.inj (Option.some.inj found)
    exact ⟨whole, .inl rfl⟩
  · rw [lineRest?_broken whole atEnd] at found
    split at found
    · cases found
    · rename_i feed
      obtain ⟨rfl, rfl⟩ := Prod.mk.inj (Option.some.inj found)
      refine ⟨whole, .inr ?_⟩
      have either : e = '\r' ∨ e = '\n' := by simpa [isLineEnd] using atEnd
      rcases either with rfl | rfl
      · cases more with
        | nil => simp at feed
        | cons d ds =>
          obtain rfl : d = '\n' := by simpa using feed
          exact .inr ⟨ds, rfl⟩
      · exact .inl ⟨more, rfl⟩

theorem filler_of_lineComment? (found : lineComment? cs = some (taken, rest)) :
    Filler rest taken := by
  rw [lineComment?_eq, Option.bind_eq_some_iff] at found
  obtain ⟨⟨mark, left⟩, opened, body⟩ := found
  obtain ⟨⟨line, _⟩, answer, same⟩ := Option.map_eq_some_iff.1 body
  obtain ⟨rfl, rfl⟩ := Prod.mk.inj same
  obtain ⟨whole, ends⟩ := endsLine_of_lineRest? answer
  rcases (opener?_cases opened).2 with rfl | ⟨rfl, blank⟩
  · exact .hash whole ends
  · rw [← lineRest?_append answer] at blank
    exact .hyphens blank whole ends

theorem filler_of_spaces? (found : spaces? cs = some (taken, rest)) : Filler rest taken := by
  cases cs with
  | nil => cases found
  | cons c cs =>
    simp only [spaces?, Option.ite_none_right_eq_some, Option.some.injEq, Prod.mk.injEq] at found
    obtain ⟨blank, rfl, -⟩ := found
    have later : ∀ d ∈ cs.takeWhile isSpace, isSpace d = true :=
      List.all_eq_true.1 List.all_takeWhile
    exact .blanks (List.cons_ne_nil _ _) (List.forall_mem_cons.2 ⟨blank, later⟩)

/-- What is scanned as no token is blanks or a comment. -/
theorem filler_of_scan (found : scan keywords signed cs = some ⟨none, taken, rest⟩) :
    Filler rest taken := by
  have token {answer : Option Split} {kinds : Split → Kind}
      (found : answer.map (fun s => cut (some (kinds s)) s) = some ⟨none, taken, rest⟩) : False := by
    obtain ⟨s, -, same⟩ := Option.map_eq_some_iff.1 found
    cases same
  have dropped {answer : Option Split}
      (found : answer.map (cut none) = some ⟨none, taken, rest⟩) : answer = some (taken, rest) := by
    obtain ⟨⟨_, _⟩, answer, same⟩ := Option.map_eq_some_iff.1 found
    obtain ⟨-, rfl, rfl⟩ := Cut.mk.inj same
    exact answer
  unfold scan at found
  split at found
  · obtain ⟨⟨_, _⟩, end?, same⟩ := Option.map_eq_some_iff.1 found
    obtain ⟨-, rfl, rfl⟩ := Cut.mk.inj same
    obtain ⟨body, rfl, closed⟩ := exists_of_commentEnd? end?
    exact .block closed
  rcases orElse_eq_some found with comment | ⟨-, found⟩
  · exact filler_of_lineComment? (dropped comment)
  rcases orElse_eq_some found with word | ⟨-, found⟩
  · exact (token word).elim
  rcases orElse_eq_some found with spaces | ⟨-, found⟩
  · exact filler_of_spaces? (dropped spaces)
  rcases orElse_eq_some found with name | ⟨-, found⟩
  · exact (token name).elim
  rcases orElse_eq_some found with number | ⟨-, found⟩
  · exact (token number).elim
  rcases orElse_eq_some found with string | ⟨-, operator⟩
  · exact (token string).elim
  · exact (token operator).elim

/-- Blanks and comments one after another, where the text goes on with `rest`. -/
inductive Gap (rest : List Char) : List Char → Prop
  | nil : Gap rest []
  | cons {first later : List Char} (filler : Filler (later ++ rest) first) (gap : Gap rest later) :
    Gap rest (first ++ later)

end Scan

/-- From `p` on, and up to `rest`, the text consists of these tokens and of gaps around them. -/
inductive Tiled (keywords : Keywords) (rest : List Char) : Position → List Char → List Token → Prop
  | gap {p : Position} {cs : List Char} (gap : Gap rest cs) : Tiled keywords rest p cs []
  | token {p : Position} {before cs : List Char} {t : Token} {ts : List Token}
    (gap : Gap (t.text.toList ++ (cs ++ rest)) before) (nonempty : t.text ≠ "")
    (sound : t.Sound keywords) (place : t.position = p.after before)
    (later : Tiled keywords rest (t.position.after t.text.toList) cs ts) :
    Tiled keywords rest p (before ++ (t.text.toList ++ cs)) (t :: ts)

namespace Tiled

theorem after_filler (filler : Filler (cs ++ rest) first)
    (h : Tiled keywords rest (p.after first) cs ts) : Tiled keywords rest p (first ++ cs) ts := by
  cases h with
  | gap gap => exact .gap (.cons filler gap)
  | token gap nonempty sound place later =>
    rw [← List.append_assoc]
    refine .token (.cons ?_ gap) nonempty sound (by rw [place, Position.after_append]) later
    simpa using filler

/-- The tokens come out whole, or the text is cut as far as something can be scanned. -/
theorem of_tokensFrom (keywords : Keywords) (signed : Bool) (p : Position) (cs : List Char) :
    ∃ front rest ts, cs = front ++ rest ∧ Tiled keywords rest p front ts ∧
      (rest = [] ∧ tokensFrom keywords signed p cs = .ok ts ∨
        rest ≠ [] ∧ scan keywords (signedAfter keywords signed ts) rest = none ∧
          tokensFrom keywords signed p cs =
            .error (.lexical (p.after front) (String.ofList (rest.take 20)))) := by
  -- On the length of the text: a cut is a token or part of a gap, and with no cut the rest is left.
  induction length : cs.length using Nat.strongRecOn generalizing signed p cs with
  | ind n ih =>
    by_cases empty : cs = []
    · subst empty
      exact ⟨[], [], [], rfl, .gap .nil, .inl ⟨rfl, tokensFrom_nil ..⟩⟩
    cases found : scan keywords signed cs with
    | none =>
      exact ⟨[], cs, [], rfl, .gap .nil,
        .inr ⟨empty, found, tokensFrom_of_scan_eq_none found empty⟩⟩
    | some cut =>
      have shorter : cut.rest.length < n := length ▸ length_rest_lt found
      obtain ⟨whole, nonempty⟩ := scan_divides found
      rw [tokensFrom_of_scan_eq_some found]
      obtain ⟨_ | kind, taken, left⟩ := cut
      · obtain ⟨front, rest, ts, rfl, tiled, answer⟩ :=
          ih _ shorter signed (p.after taken) left rfl
        refine ⟨taken ++ front, rest, ts, by simpa using whole.symm,
          tiled.after_filler (filler_of_scan found), ?_⟩
        rwa [Position.after_append]
      · let t : Token := ⟨kind, String.ofList taken, p⟩
        obtain ⟨front, rest, ts, rfl, tiled, answer⟩ :=
          ih _ shorter (!t.endsOperand keywords) (p.after taken) left rfl
        have text : t.text.toList = taken := String.toList_ofList
        have some : t.text ≠ "" := fun none => nonempty (by rw [← text, none]; rfl)
        refine ⟨taken ++ front, rest, t :: ts, by simpa using whole.symm, ?_, ?_⟩
        · have later : Tiled keywords rest (t.position.after t.text.toList) front ts := by
            rwa [text]
          have first := Tiled.token (p := p) .nil some (sound_of_scan found rfl).1 rfl later
          rwa [List.nil_append, text] at first
        · rw [Position.after_append]
          rcases answer with ⟨none, tokens⟩ | ⟨some, stuck, error⟩
          · exact .inl ⟨none, congrArg (Except.map (t :: ·)) tokens⟩
          · exact .inr ⟨some, stuck, congrArg (Except.map (t :: ·)) error⟩

theorem text_ne (h : Tiled keywords rest p cs ts) : ∀ t ∈ ts, t.text ≠ "" := by
  induction h with
  | gap => exact nofun
  | token _ nonempty _ _ _ ih => exact List.forall_mem_cons.2 ⟨nonempty, ih⟩

/-- Each token stands in the text, and its place is where the text before it ends. -/
theorem divides (h : Tiled keywords rest p cs ts) :
    ∀ t ∈ ts, ∃ front later, cs = front ++ (t.text.toList ++ later) ∧
      t.position = p.after front := by
  induction h with
  | gap => exact nofun
  | @token p before cs t ts _ _ _ place _ ih =>
    refine List.forall_mem_cons.2 ⟨⟨before, cs, rfl, place⟩, fun u hu => ?_⟩
    obtain ⟨front, later, rfl, there⟩ := ih u hu
    refine ⟨before ++ (t.text.toList ++ front), later, by simp, ?_⟩
    rw [there, place, Position.after_append, Position.after_append]

theorem apart (h : Tiled keywords rest p cs ts) : ts.Pairwise fun t u =>
    t.position.offset + byteLength t.text.toList ≤ u.position.offset := by
  induction h with
  | gap => exact .nil
  | token _ _ _ _ later ih =>
    refine List.pairwise_cons.2 ⟨fun u hu => ?_, ih⟩
    obtain ⟨front, _, -, there⟩ := later.divides u hu
    rw [there, Position.offset_after, Position.offset_after]
    exact Nat.le_add_right ..

end Tiled

/-- The tokens are those of the text before `rest`, each one at its place, and only blanks and
comments are left over. -/
structure Tiles (keywords : Keywords) (front rest : List Char) (ts : List Token) : Prop where
  tiled : Tiled keywords rest .start front ts
  nonempty : ∀ t ∈ ts, t.text ≠ ""
  slice : ∀ t ∈ ts, sliceBytes t.position.offset
    (t.position.offset + byteLength t.text.toList) (front ++ rest) = t.text.toList
  placed : ∀ t ∈ ts, t.position =
    Position.endOf (String.ofList (takeBytes t.position.offset (front ++ rest)))
  ascending : ts.Pairwise fun t u => t.position.offset < u.position.offset
  apart : ts.Pairwise fun t u =>
    t.position.offset + byteLength t.text.toList ≤ u.position.offset

theorem byteLength_pos {text : String} (nonempty : text ≠ "") : 0 < byteLength text.toList := by
  cases chars : text.toList with
  | nil => exact absurd (String.toList_eq_nil_iff.1 chars) nonempty
  | cons c cs => exact Nat.add_pos_left c.utf8Size_pos _

theorem Tiled.tiles (h : Tiled keywords rest .start front ts) : Tiles keywords front rest ts where
  tiled := h
  nonempty := h.text_ne
  slice := by
    intro t ht
    obtain ⟨before, later, rfl, place⟩ := h.divides t ht
    have start : t.position.offset = byteLength before := by
      rw [place, Position.offset_after]
      exact Nat.zero_add _
    rw [start, ← byteLength_append, List.append_assoc, List.append_assoc, sliceBytes_byteLength]
  placed := by
    intro t ht
    obtain ⟨before, later, rfl, place⟩ := h.divides t ht
    have start : t.position.offset = byteLength before := by
      rw [place, Position.offset_after]
      exact Nat.zero_add _
    rw [start, List.append_assoc, takeBytes_byteLength_append, Position.endOf,
      String.toList_ofList, place]
  ascending := by
    refine h.apart.imp_of_mem fun ht _ order => ?_
    have long := byteLength_pos (h.text_ne _ ht)
    omega
  apart := h.apart

/-- The tokens of a text tile it, and where there are none because of an error, the text is tiled
up to the place of the error, at which nothing can be scanned. Every step of the scan goes on by
a character or more. -/
theorem tiles_of_tokenize (keywords : Keywords) (text : String) :
    (∀ ts, tokenize keywords text = .ok ts → Tiles keywords text.toList [] ts) ∧
    (∀ e, tokenize keywords text = .error e → ∃ front rest ts,
      text.toList = front ++ rest ∧ rest ≠ [] ∧ Tiles keywords front rest ts ∧
      scan keywords (signedAfter keywords true ts) rest = none ∧
      e = .lexical (Position.endOf (String.ofList front)) (String.ofList (rest.take 20))) ∧
    ∀ signed cs cut, scan keywords signed cs = some cut →
      cut.taken ≠ [] ∧ cut.taken ++ cut.rest = cs ∧ cut.rest.length < cs.length := by
  obtain ⟨front, rest, us, whole, tiled, answer⟩ :=
    Tiled.of_tokensFrom keywords true .start text.toList
  refine ⟨fun ts cut => ?_, fun e error => ?_, fun signed cs cut found => ?_⟩
  · rcases answer with ⟨rfl, tokens⟩ | ⟨-, -, error⟩
    · obtain rfl : us = ts := Except.ok.inj (tokens.symm.trans cut)
      rw [whole, List.append_nil]
      exact tiled.tiles
    · cases error.symm.trans cut
  · rcases answer with ⟨-, tokens⟩ | ⟨some, stuck, found⟩
    · cases tokens.symm.trans error
    · refine ⟨front, rest, us, whole, some, tiled.tiles, stuck, ?_⟩
      rw [Position.endOf, String.toList_ofList]
      exact Except.error.inj (error.symm.trans found)
  · obtain ⟨parts, nonempty⟩ := scan_divides found
    exact ⟨nonempty, parts, length_rest_lt found⟩

/-- A quote that nothing closes is where the second text ends, after a comment and a name of two
bytes. -/
theorem tiles_of_tokenize_quote :
    Tiles .mysql "é -- x\n'\n'#".toList []
      [⟨.identifier, "é", ⟨0, 1, 1⟩⟩, ⟨.string, "'\n'", ⟨8, 2, 1⟩⟩] ∧
    ∃ front rest ts, "é/**/\n'x".toList = front ++ rest ∧ rest ≠ [] ∧ Tiles .mysql front rest ts ∧
      scan .mysql (signedAfter .mysql true ts) rest = none ∧
      Error.lexical ⟨7, 2, 1⟩ "'x" =
        .lexical (Position.endOf (String.ofList front)) (String.ofList (rest.take 20)) :=
  ⟨(tiles_of_tokenize .mysql "é -- x\n'\n'#").1 _ (Parser.eq_ok_of_toOption (by decide +kernel)),
    (tiles_of_tokenize .mysql "é/**/\n'x").2.1 _ (by decide +kernel)⟩

end TableDdl
