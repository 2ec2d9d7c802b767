import TableDdl.Proofs.Script.Joined
import TableDdl.Session

/-!
# Scripts on consecutive lines

A script that ends with a semicolon may have another script on the lines after it. Together they
have the statements of the first one and then those of the second, each with its text as it was.
Blank lines in front of a script make no difference.
-/
namespace TableDdl

open Scan Text

variable {keywords : Keywords} {signed seen : Bool} {p : Position}
  {cs x y w before before' body lead : List Char} {ts us g later : List Token} {semi : Token}

namespace Text

theorem dropBytes_byteLength_add (a b : List Char) (n : Nat) :
    dropBytes (byteLength a + n) (a ++ b) = dropBytes n b := by
  induction a with
  | nil => simp
  | cons c a ih =>
    have left : c.utf8Size + byteLength a + n - c.utf8Size = byteLength a + n := by omega
    rw [byteLength_cons, List.cons_append, dropBytes, if_pos (by omega), left, ih]

theorem takeBytes_byteLength_add (a b : List Char) (n : Nat) :
    takeBytes (byteLength a + n) (a ++ b) = a ++ takeBytes n b := by
  induction a with
  | nil => simp
  | cons c a ih =>
    have left : c.utf8Size + byteLength a + n - c.utf8Size = byteLength a + n := by omega
    rw [byteLength_cons, List.cons_append, takeBytes, if_pos (by omega), left, ih]
    rfl

theorem takeBytes_append_of_le {n : Nat} {a : List Char} (short : n ≤ byteLength a)
    (b : List Char) : takeBytes n (a ++ b) = takeBytes n a := by
  induction a generalizing n with
  | nil =>
    obtain rfl : n = 0 := Nat.le_zero.1 short
    simp
  | cons c a ih =>
    have rest : n - c.utf8Size ≤ byteLength a := by
      rw [byteLength_cons] at short
      omega
    rw [List.cons_append, takeBytes, takeBytes, ih rest]

theorem dropBytes_append_of_le {n : Nat} {a : List Char} (short : n ≤ byteLength a)
    (b : List Char) : dropBytes n (a ++ b) = dropBytes n a ++ b := by
  induction a generalizing n with
  | nil =>
    obtain rfl : n = 0 := Nat.le_zero.1 short
    simp
  | cons c a ih =>
    have rest : n - c.utf8Size ≤ byteLength a := by
      rw [byteLength_cons] at short
      omega
    rw [List.cons_append, dropBytes, dropBytes, ih rest]
    split <;> rfl

theorem le_byteLength_dropBytes (n : Nat) (a : List Char) :
    byteLength a - n ≤ byteLength (dropBytes n a) := by
  induction a generalizing n with
  | nil => simp
  | cons c a ih =>
    rw [dropBytes]
    split
    · have rest := ih (n - c.utf8Size)
      rw [byteLength_cons]
      omega
    · exact Nat.sub_le ..

/-- A slice that ends within the first part of a text is one of the first part. -/
theorem sliceBytes_append_of_le {start stop : Nat} {a : List Char} (short : stop ≤ byteLength a)
    (b : List Char) : sliceBytes start stop (a ++ b) = sliceBytes start stop a := by
  rw [sliceBytes, sliceBytes]
  by_cases within : start ≤ byteLength a
  · rw [dropBytes_append_of_le within, takeBytes_append_of_le]
    have left := le_byteLength_dropBytes start a
    omega
  · have none : stop - start = 0 := by omega
    rw [none, takeBytes_zero, takeBytes_zero]

end Text

theorem exists_concat_of_forall₂ {R : Token → Token → Prop} {t : Token}
    (h : List.Forall₂ R (g ++ [t]) us) : ∃ g' u, us = g' ++ [u] ∧ R t u := by
  induction g generalizing us with
  | nil =>
    obtain ⟨u, _, here, rest, rfl⟩ := List.forall₂_cons_left_iff.1 h
    obtain rfl := List.forall₂_nil_left_iff.1 rest
    exact ⟨[], u, rfl, here⟩
  | cons t' g ih =>
    obtain ⟨u', _, -, rest, rfl⟩ := List.forall₂_cons_left_iff.1 h
    obtain ⟨g', u, rfl, here⟩ := ih rest
    exact ⟨u' :: g', u, rfl, here⟩

namespace Lexes

/-- At another place the text has its tokens at the same distances from its start. -/
theorem displaced (h : Lexes keywords signed p cs ts) (q : Position) :
    ∃ us, Lexes keywords signed q cs us ∧ List.Forall₂ (fun t u =>
      u.isSemicolon = t.isSemicolon ∧
        ∃ n, t.position.offset = p.offset + n ∧ u.position.offset = q.offset + n) ts us := by
  have further (taken : List Char) {p q : Position} {t u : Token}
      (h : u.isSemicolon = t.isSemicolon ∧ ∃ n, t.position.offset = (p.after taken).offset + n ∧
        u.position.offset = (q.after taken).offset + n) : u.isSemicolon = t.isSemicolon ∧
      ∃ n, t.position.offset = p.offset + n ∧ u.position.offset = q.offset + n := by
    obtain ⟨same, n, first, second⟩ := h
    rw [Position.offset_after] at first second
    exact ⟨same, byteLength taken + n, by omega, by omega⟩
  induction h generalizing q with
  | done => exact ⟨[], .done, .nil⟩
  | @space _ _ c _ _ blank _ ih =>
    obtain ⟨us, later, same⟩ := ih (q.next c)
    exact ⟨us, .space blank later, same.imp fun _ _ => further [c]⟩
  | @comment _ _ _ _ taken _ _ solid found _ ih =>
    obtain ⟨us, later, same⟩ := ih (q.after taken)
    exact ⟨us, .comment solid found later, same.imp fun _ _ => further taken⟩
  | @token _ _ _ _ taken _ kind _ solid found _ ih =>
    obtain ⟨us, later, same⟩ := ih (q.after taken)
    exact ⟨⟨kind, String.ofList taken, q⟩ :: us, .token solid found later,
      .cons ⟨rfl, 0, rfl, rfl⟩ (same.imp fun _ _ => further taken)⟩

theorem offset_le (h : Lexes keywords signed p cs ts) :
    ∀ t ∈ ts, p.offset ≤ t.position.offset ∧
      t.position.offset ≤ p.offset + byteLength cs := by
  have further (taken : List Char) {p : Position} {rest : List Char} {ts : List Token}
      (h : ∀ t ∈ ts, (p.after taken).offset ≤ t.position.offset ∧
        t.position.offset ≤ (p.after taken).offset + byteLength rest) :
      ∀ t ∈ ts, p.offset ≤ t.position.offset ∧
        t.position.offset ≤ p.offset + byteLength (taken ++ rest) := by
    intro t ht
    obtain ⟨low, high⟩ := h t ht
    rw [Position.offset_after] at low high
    rw [byteLength_append]
    omega
  induction h with
  | done => exact nofun
  | @space _ _ c _ _ _ _ ih => exact further [c] ih
  | comment _ found _ ih =>
    rw [← (scan_divides found).1]
    exact further _ ih
  | token _ found _ ih =>
    rw [← (scan_divides found).1]
    exact List.forall_mem_cons.2 ⟨⟨Nat.le_refl _, Nat.le_add_right ..⟩, further _ ih⟩

theorem isSpace_of_blank (blank : ∀ d ∈ x, isBlank d = true)
    (h : Lexes keywords signed p (x ++ cs) ts) : ∀ d ∈ x, isSpace d = true := by
  induction x generalizing p with
  | nil => exact nofun
  | cons d x ih =>
    obtain ⟨first, others⟩ := List.forall_mem_cons.1 blank
    cases h with
    | space space later => exact List.forall_mem_cons.2 ⟨space, ih others later⟩
    | comment solid found => simp [scan_of_blank first solid] at found
    | token solid found => simp [scan_of_blank first solid] at found

end Lexes

/-- What goes on with a text may be cut off where nothing in the text looks further. -/
theorem LexesBefore.shorten (h : LexesBefore keywords (y ++ x) signed p cs ts)
    (steady : SteadyWithin x (cs ++ y)) : LexesBefore keywords y signed p cs ts := by
  have short {kind : Option Kind} {c : Char} {cs taken rest : List Char} {signed : Bool}
      (steady : SteadyWithin x (c :: cs ++ y)) (solid : isSpace c = false)
      (found : scan keywords signed (c :: cs ++ (y ++ x)) = some ⟨kind, taken, rest ++ (y ++ x)⟩) :
      scan keywords signed (c :: cs ++ y) = some ⟨kind, taken, rest ++ y⟩ := by
    refine (scan_goOn_iff (steady c _ (List.suffix_refl _) solid) solid).1 ?_
    simpa using found
  have later {c : Char} {cs taken rest : List Char} (parts : taken ++ rest = c :: cs)
      (steady : SteadyWithin x (c :: cs ++ y)) : SteadyWithin x (rest ++ y) :=
    steady.of_suffix ⟨taken, by rw [← parts, List.append_assoc]⟩
  induction h with
  | done => exact .done
  | space blank _ ih => exact .space blank (ih (steady.of_suffix (List.suffix_cons ..)))
  | comment solid parts found _ ih =>
    exact .comment solid parts (short steady solid found) (ih (later parts steady))
  | token solid parts found _ ih =>
    exact .token solid parts (short steady solid found) (ih (later parts steady))

namespace Script

/-- The pieces do not depend on what stands before the text. -/
theorem piecesFrom_displaced (before before' cs : List Char) {n : Nat}
    (h : List.Forall₂ (fun t u => u.isSemicolon = t.isSemicolon ∧ ∃ n,
      t.position.offset = byteLength before + n ∧ u.position.offset = byteLength before' + n) ts us) :
    piecesFrom (before ++ cs) (byteLength before + n) seen ts =
      piecesFrom (before' ++ cs) (byteLength before' + n) seen us := by
  induction h generalizing seen n with
  | nil => simp only [piecesFrom, dropBytes_byteLength_add]
  | @cons t u _ _ here _ ih =>
    obtain ⟨same, m, first, second⟩ := here
    have stop (k : Nat) : k + m - (k + n) = m - n := by omega
    simp only [piecesFrom, same, first, second, Nat.add_assoc, ih, sliceBytes,
      dropBytes_byteLength_add, stop]

/-- Blanks in front of the first token are trimmed. -/
theorem piecesFrom_lead (blank : ∀ d ∈ lead, isBlank d = true) (cs : List Char)
    (further : ∀ t ∈ ts, byteLength before + byteLength lead ≤ t.position.offset) :
    piecesFrom (before ++ (lead ++ cs)) (byteLength before) seen ts =
      piecesFrom (before ++ (lead ++ cs)) (byteLength before + byteLength lead) seen ts := by
  have trimmed (cs : List Char) : trim (lead ++ cs) = trim cs := by
    have around : trim (lead ++ (cs ++ [])) = trim cs :=
      trim_blank_append blank (List.forall_mem_nil _)
    rwa [List.append_nil] at around
  have start (n : Nat) : dropBytes (byteLength before + n) (before ++ (lead ++ cs)) =
      dropBytes n (lead ++ cs) := dropBytes_byteLength_add ..
  have first : dropBytes (byteLength before) (before ++ (lead ++ cs)) = lead ++ cs :=
    dropBytes_byteLength_append ..
  induction ts generalizing seen with
  | nil => simp only [piecesFrom, first, start, dropBytes_byteLength_append, trimmed]
  | cons t ts ih =>
    obtain ⟨here, others⟩ := List.forall_mem_cons.1 further
    obtain ⟨n, stop⟩ := Nat.exists_eq_add_of_le here
    have whole : t.position.offset - byteLength before = byteLength lead + n := by omega
    have short : t.position.offset - (byteLength before + byteLength lead) = n := by omega
    simp only [piecesFrom, sliceBytes, first, start, dropBytes_byteLength_append, whole, short,
      takeBytes_byteLength_add, trimmed, ih others]

/-- The pieces up to a semicolon are those of the text up to there. -/
theorem piecesFrom_append {start : Nat} (isSemi : semi.isSemicolon = true)
    (within : ∀ t ∈ g ++ [semi], t.position.offset ≤ byteLength cs) (x : List Char)
    (later : List Token) :
    piecesFrom (cs ++ x) start seen (g ++ semi :: later) =
      piecesFrom cs start seen (g ++ [semi]) ++
        piecesFrom (cs ++ x) (semi.position.offset + 1) false later := by
  induction g generalizing start seen with
  | nil =>
    have here := within semi List.mem_cons_self
    simp only [List.nil_append, piecesFrom, isSemi, if_true, Bool.false_eq_true, if_false,
      sliceBytes_append_of_le here]
    cases seen <;> rfl
  | cons t g ih =>
    obtain ⟨here, others⟩ := List.forall_mem_cons.1 within
    simp only [List.cons_append, piecesFrom, ih others, sliceBytes_append_of_le here]
    cases t.isSemicolon <;> cases seen <;> rfl

theorem split_of_lexes (h : Lexes .mysql true .start cs ts) :
    split (String.ofList cs) = .ok (piecesFrom cs 0 false ts) := by
  have cut : tokenize .mysql (String.ofList cs) = .ok ts := by
    rw [tokenize, String.toList_ofList]
    exact h.tokensFrom_eq
  rw [split, cut, String.toList_ofList]
  rfl

/-- After blanks, and after whatever stands before them, a script has the pieces it has alone. -/
theorem piecesFrom_of_lead (before : List Char) (blank : ∀ d ∈ lead, isBlank d = true)
    (place : p.offset = byteLength before)
    (h : Lexes .mysql true (p.after lead) cs ts) :
    split (String.ofList cs) =
      .ok (piecesFrom (before ++ (lead ++ cs)) (byteLength before) false ts) := by
  obtain ⟨us, alone, same⟩ := h.displaced .start
  have start : (p.after lead).offset = byteLength (before ++ lead) := offset_after_of_eq place lead
  rw [start, byteLength_append] at same
  have further : ∀ t ∈ ts, byteLength before + byteLength lead ≤ t.position.offset := by
    intro t ht
    have low := (h.offset_le t ht).1
    rwa [start, byteLength_append] at low
  rw [split_of_lexes alone, piecesFrom_lead blank cs further, ← byteLength_append,
    ← List.append_assoc]
  have moved : piecesFrom (before ++ lead ++ cs) (byteLength (before ++ lead)) false ts =
      piecesFrom ([] ++ cs) (byteLength []) false us :=
    piecesFrom_displaced _ _ cs (n := 0) (by simpa [Position.start] using same)
  exact congrArg Except.ok moved.symm

/-- Blanks in front of a script make no difference. -/
theorem exists_split_lead (blank : ∀ d ∈ lead, isBlank d = true)
    (h : Lexes .mysql true p (lead ++ cs) ts) :
    ∃ pieces, split (String.ofList (lead ++ cs)) = .ok pieces ∧
      split (String.ofList cs) = .ok pieces := by
  obtain ⟨us, first, -⟩ := h.displaced .start
  exact ⟨_, split_of_lexes first, piecesFrom_of_lead [] blank rfl (first.trimFront blank)⟩

/-- A script that ends with a semicolon, and another one on the next line. -/
theorem split_append (isSemi : semi.isSemicolon = true) (blank : ∀ d ∈ w, isBlank d = true)
    (h : Lexes .mysql true p (body ++ ';' :: w) (g ++ [semi]))
    (place : semi.position.offset = p.offset + byteLength body) (free : '\r' ∉ body ++ ';' :: w)
    (h' : Lexes .mysql true .start cs us) :
    (∃ vs, Lexes .mysql true .start (body ++ ';' :: w ++ '\n' :: cs) vs) ∧
      ∃ pieces pieces', split (String.ofList (body ++ ';' :: w)) = .ok pieces ∧
        split (String.ofList cs) = .ok pieces' ∧
        split (String.ofList (body ++ ';' :: w ++ '\n' :: cs)) = .ok (pieces ++ pieces') := by
  obtain ⟨ts, first, same⟩ := h.displaced .start
  obtain ⟨g, semi, rfl, isSemi', n, place', offset⟩ := exists_concat_of_forall₂ same
  rw [isSemi] at isSemi'
  obtain rfl : n = byteLength body := by omega
  have signed : signedAfter .mysql true (g ++ [semi]) = true := by
    obtain ⟨kind, text⟩ := Token.eq_of_isSemicolon isSemi'
    simp [signedAfter, Token.endsOperand, kind, text]
  obtain ⟨lead, isLead⟩ : ∃ lead, w ++ ['\n'] = lead := ⟨_, rfl⟩
  have blanks : ∀ d ∈ lead, isBlank d = true := by
    rw [← isLead]
    exact List.forall_mem_append.2 ⟨blank, by decide⟩
  obtain ⟨q, isPlace⟩ : ∃ q, Position.start.after (body ++ [';']) = q := ⟨_, rfl⟩
  have placed : q.offset = byteLength (body ++ [';']) := by
    rw [← isPlace, Position.offset_after]
    exact Nat.zero_add _
  have parts : body ++ ';' :: w ++ ['\n'] = body ++ [';'] ++ lead := by simp [← isLead]
  have after : (Position.start.after (body ++ ';' :: w)).next '\n' = q.after lead := by
    have joined := Position.after_append .start (body ++ ';' :: w) ['\n']
    rw [parts, Position.after_append, isPlace] at joined
    exact joined.symm
  -- Behind the first script the second one has its tokens at the same distances.
  obtain ⟨vs, moved, -⟩ := h'.displaced (q.after lead)
  have whole : Lexes .mysql true .start (body ++ ';' :: w ++ '\n' :: cs) (g ++ [semi] ++ vs) := by
    refine first.append (steadyWithin_feed free) ?_
    rw [signed]
    exact .space (by decide) (by rwa [after])
  refine ⟨⟨_, whole⟩, _, _, split_of_lexes first,
    piecesFrom_of_lead _ blanks placed moved, ?_⟩
  have within : ∀ t ∈ g ++ [semi], t.position.offset ≤ byteLength (body ++ ';' :: w) := by
    intro t ht
    simpa [Position.start] using (first.offset_le t ht).2
  have next : byteLength (body ++ [';']) = semi.position.offset + 1 := by
    rw [offset, byteLength_append, Position.start, Nat.zero_add]
    rfl
  have text : body ++ [';'] ++ (lead ++ cs) = body ++ ';' :: w ++ '\n' :: cs := by
    simp [← isLead]
  have tokens : g ++ [semi] ++ vs = g ++ semi :: vs := by simp
  rw [split_of_lexes whole, tokens, piecesFrom_append isSemi' within, text, next]

theorem run_append {first second whole : String} {pieces pieces' : List String}
    (front : split first = .ok pieces) (back : split second = .ok pieces')
    (both : split whole = .ok (pieces ++ pieces')) (keywords : Keywords) (format : Format) :
    run keywords format whole = run keywords format first ++ run keywords format second := by
  simp only [run, parse, front, back, both, List.map_append]

end Script
end TableDdl
