import TableDdl.Proofs.RoundTrip.Parsing
import TableDdl.Proofs.Token.Shortened

/-!
# Pieces of a script

A script is cut at its semicolons. The slices that are taken lie between the bounds of the text and
begin and end between characters. Main statement: the pieces are one for each group of tokens
between semicolons, in the same order, and each has the tokens of its group.
-/
namespace TableDdl

open Scan Text

namespace Script

/-- The tokens between semicolons, where there are any. -/
def groups (ts : List Token) : List (List Token) :=
  (ts.splitOnP Token.isSemicolon).filter (!·.isEmpty)

variable {text before body rest cs : List Char} {g ts later : List Token} {semi : Token}
  {start : Nat} {seen : Bool} {p : Position}

theorem groups_append_semicolon (isSemi : semi.isSemicolon = true) (g later : List Token) :
    groups (g ++ semi :: later) = groups g ++ groups later := by
  rw [groups, List.splitOnP_append_cons g later isSemi, List.filter_append]
  rfl

/-- No token is a semicolon. -/
def Undivided (g : List Token) : Prop := ∀ t ∈ g, t.isSemicolon = false

instance (g : List Token) : Decidable (Undivided g) :=
  inferInstanceAs (Decidable (∀ t ∈ g, t.isSemicolon = false))

theorem groups_of_undivided (free : Undivided g) : groups g = if g.isEmpty then [] else [g] := by
  rw [groups, List.splitOnP_eq_singleton free]
  cases g <;> rfl

/-- Tokens come to an end, or to the first semicolon. -/
theorem undivided_or (ts : List Token) : Undivided ts ∨
    ∃ g semi later, ts = g ++ semi :: later ∧ Undivided g ∧ semi.isSemicolon = true := by
  induction ts with
  | nil => exact .inl nofun
  | cons t ts ih =>
    cases isSemi : t.isSemicolon with
    | true => exact .inr ⟨[], t, ts, rfl, nofun, isSemi⟩
    | false =>
      rcases ih with free | ⟨g, semi, later, rfl, free, isSemi'⟩
      · exact .inl (List.forall_mem_cons.2 ⟨isSemi, free⟩)
      · exact .inr ⟨t :: g, semi, later, rfl, List.forall_mem_cons.2 ⟨isSemi, free⟩, isSemi'⟩

/-- What holds of tokens without a semicolon, and is kept where such tokens and a semicolon come
in front, holds of all lists of tokens. -/
theorem group_induction {P : List Token → Prop} (last : ∀ g, Undivided g → P g)
    (cons : ∀ g semi later, Undivided g → semi.isSemicolon = true → P later →
      P (g ++ semi :: later)) (ts : List Token) : P ts := by
  induction length : ts.length using Nat.strongRecOn generalizing ts with
  | ind n ih =>
    rcases undivided_or ts with free | ⟨g, semi, later, rfl, free, isSemi⟩
    · exact last ts free
    · refine cons g semi later free isSemi (ih later.length ?_ later rfl)
      rw [← length, List.length_append, List.length_cons]
      omega

theorem offset_after_of_eq (place : p.offset = byteLength before) (cs : List Char) :
    (p.after cs).offset = byteLength (before ++ cs) := by
  rw [Position.offset_after, place, byteLength_append]

/-- Where a semicolon stands, and where the text goes on after it. -/
theorem offset_semicolon (place : p.offset = byteLength before)
    (position : semi.position = p.after body) :
    semi.position.offset = byteLength (before ++ body) ∧
      semi.position.offset + 1 = byteLength (before ++ body ++ [';']) := by
  have stop : semi.position.offset = byteLength (before ++ body) := by
    rw [position, offset_after_of_eq place]
  refine ⟨stop, ?_⟩
  rw [stop, byteLength_append (before ++ body)]
  rfl

/-- A part of a text by offsets; without a second one it reaches to the end. -/
structure Slice where
  start : Nat
  stop : Option Nat
deriving DecidableEq

namespace Slice

def of (text : List Char) (s : Slice) : List Char :=
  match s.stop with
  | some stop => sliceBytes s.start stop text
  | none => dropBytes s.start text

/-- The piece that the part becomes. -/
def piece (text : List Char) (s : Slice) : String := String.ofList (trim (s.of text))

theorem piece_between (before body rest : List Char) :
    piece (before ++ (body ++ rest)) ⟨byteLength before, some (byteLength (before ++ body))⟩ =
      String.ofList (trim body) := by
  simp only [piece, of, sliceBytes_byteLength]

theorem piece_rest (before rest : List Char) :
    piece (before ++ rest) ⟨byteLength before, none⟩ = String.ofList (trim rest) := by
  simp only [piece, of, dropBytes_byteLength_append]

/-- The offsets are in order, lie within the text and fall between characters. -/
def InBounds (text : List Char) (s : Slice) : Prop :=
  ∃ before body after, text = before ++ (body ++ after) ∧ s.start = byteLength before ∧
    s.stop.getD (byteLength text) = byteLength (before ++ body)

end Slice

/-- The slices that the pieces are made of. -/
def slicesFrom (start : Nat) (seen : Bool) : List Token → List Slice
  | [] => if seen then [⟨start, none⟩] else []
  | t :: ts =>
    if t.isSemicolon then
      let rest := slicesFrom (t.position.offset + 1) false ts
      if seen then ⟨start, some t.position.offset⟩ :: rest else rest
    else slicesFrom start true ts

theorem piecesFrom_eq_map (text : List Char) (start : Nat) (seen : Bool) (ts : List Token) :
    piecesFrom text start seen ts = (slicesFrom start seen ts).map (Slice.piece text) := by
  induction ts generalizing start seen with
  | nil => cases seen <;> rfl
  | cons t ts ih =>
    simp only [piecesFrom, slicesFrom, ih]
    split
    · cases seen <;> rfl
    · rfl

theorem slicesFrom_append (free : Undivided g) :
    slicesFrom start seen (g ++ ts) = slicesFrom start (seen || !g.isEmpty) ts := by
  induction g generalizing seen with
  | nil => simp
  | cons t g ih =>
    obtain ⟨first, others⟩ := List.forall_mem_cons.1 free
    simp [slicesFrom, first, ih others]

theorem slicesFrom_of_undivided (free : Undivided g) :
    slicesFrom start false g = if g.isEmpty then [] else [⟨start, none⟩] := by
  have all : slicesFrom start false (g ++ []) = slicesFrom start (!g.isEmpty) [] :=
    slicesFrom_append free
  rw [List.append_nil] at all
  rw [all]
  cases g <;> rfl

theorem slicesFrom_semicolon (free : Undivided g) (isSemi : semi.isSemicolon = true) :
    slicesFrom start false (g ++ semi :: later) =
      (if g.isEmpty then [] else [⟨start, some semi.position.offset⟩]) ++
        slicesFrom (semi.position.offset + 1) false later := by
  rw [slicesFrom_append free]
  cases g <;> simp [slicesFrom, isSemi]

/-- The text is a part of the script without blanks around it, and has these tokens, none of
which is a semicolon. -/
structure IsPiece (sql piece : String) (g : List Token) : Prop where
  part : piece.toList <:+: sql.toList
  trimmed : trim piece.toList = piece.toList
  tokens : ∃ us, tokenize .mysql piece = .ok us ∧ us.map Token.anywhere = g.map Token.anywhere ∧
    Undivided us

theorem isSemicolon_anywhere (t : Token) : t.anywhere.isSemicolon = t.isSemicolon := rfl

theorem Undivided.of_anywhere {us : List Token} (free : Undivided g)
    (same : us.map Token.anywhere = g.map Token.anywhere) : Undivided us := by
  intro u hu
  obtain ⟨t, ht, alike⟩ := List.mem_map.1 (same ▸ List.mem_map_of_mem hu)
  rw [← isSemicolon_anywhere, ← alike, isSemicolon_anywhere]
  exact free t ht

/-- What lies between semicolons becomes a piece with the tokens that were there. -/
theorem isPiece_of_lexes {sql : String} (h : Lexes .mysql true p body g) (free : Undivided g)
    (part : body <:+: sql.toList)
    (settled : ∀ after, (∀ d ∈ after, isBlank d = true) → trim body ++ after <:+ body →
      Settled after (trim body) g) : IsPiece sql (String.ofList (trim body)) g where
  part := by
    rw [String.toList_ofList]
    exact (trim_within body).trans part
  trimmed := by rw [String.toList_ofList, trim_trim]
  tokens := by
    obtain ⟨q, lexes⟩ := h.trimmed settled
    obtain ⟨us, again, same⟩ := lexes.elsewhere .start
    refine ⟨us, ?_, same, free.of_anywhere same⟩
    rw [tokenize, String.toList_ofList]
    exact again.tokensFrom_eq

/-- The slices of a script are in bounds, and give a piece for each group. -/
theorem forall₂_slices {sql : String} (whole : sql.toList = before ++ cs)
    (place : p.offset = byteLength before) (h : Lexes .mysql true p cs ts) (returns : ReturnsFed cs)
    (apart : ∀ t ∈ ts, t.isSemicolon = true →
      ¬ ['-', '-'] <:+ takeBytes t.position.offset sql.toList) :
    List.Forall₂ (fun s g => s.InBounds sql.toList ∧ IsPiece sql (s.piece sql.toList) g)
      (slicesFrom (byteLength before) false ts) (groups ts) := by
  induction ts using group_induction generalizing before cs p with
  | last g free =>
    rw [slicesFrom_of_undivided free, groups_of_undivided free]
    cases g with
    | nil => exact .nil
    | cons t g =>
      refine .cons ⟨⟨before, cs, [], by simp [whole], rfl, by simp [whole]⟩, ?_⟩ .nil
      rw [whole, Slice.piece_rest]
      exact isPiece_of_lexes h free ⟨before, [], by simp [whole]⟩ returns.settled_trim
  | cons g semi later free isSemi ih =>
    obtain ⟨body, rest, rfl, same, after, front⟩ := h.divide isSemi
    obtain ⟨stop, next⟩ := offset_semicolon place (congrArg Token.position same)
    have later_place : (p.after (body ++ [';'])).offset = byteLength (before ++ body ++ [';']) := by
      rw [offset_after_of_eq place, List.append_assoc]
    have later_whole : sql.toList = before ++ body ++ [';'] ++ rest := by simp [whole]
    have lexes : Lexes .mysql true p body g := by
      have single := apart semi (by simp) isSemi
      refine front.alone after (returns.settled (by simp) fun hyphens => absurd ?_ single)
      rw [stop, later_whole, List.append_assoc, takeBytes_byteLength_append]
      exact hyphens.trans (List.suffix_append before body)
    have fed : ReturnsFed body := returns.of_append (by simp)
    have others := ih later_whole later_place after (returns.of_suffix ⟨body ++ [';'], by simp⟩)
      fun t ht => apart t (List.mem_append_right g (List.mem_cons_of_mem semi ht))
    rw [slicesFrom_semicolon free isSemi, groups_append_semicolon isSemi, groups_of_undivided free,
      next]
    refine List.rel_append ?_ others
    cases g with
    | nil => exact .nil
    | cons t g =>
      refine .cons ⟨⟨before, body, ';' :: rest, whole, rfl, stop⟩, ?_⟩ .nil
      rw [whole, stop, Slice.piece_between]
      exact isPiece_of_lexes lexes free ⟨before, ';' :: rest, by simp [whole]⟩ fed.settled_trim

/-- Splitting a script commutes with cutting it into tokens: there is one piece for each group of
tokens between semicolons, with the tokens of the group, and no slice is out of bounds. -/
theorem split_of_tokenize {sql : String} (cut : tokenize .mysql sql = .ok ts)
    (returns : ReturnsFed sql.toList)
    (apart : ∀ t ∈ ts, t.isSemicolon = true →
      ¬ ['-', '-'] <:+ takeBytes t.position.offset sql.toList) :
    ∃ pieces, split sql = .ok pieces ∧ List.Forall₂ (IsPiece sql) pieces (groups ts) ∧
      pieces = (slicesFrom 0 false ts).map (Slice.piece sql.toList) ∧
      ∀ s ∈ slicesFrom 0 false ts, s.InBounds sql.toList := by
  have cutting : split sql = .ok ((slicesFrom 0 false ts).map (Slice.piece sql.toList)) := by
    rw [split, cut, Except.map, piecesFrom_eq_map]
  obtain ⟨bounds, pieces⟩ := (List.forall₂_and_left _ _).1
    (forall₂_slices (List.nil_append _).symm rfl (lexes_of_tokenize cut) returns apart)
  exact ⟨_, cutting, List.forall₂_map_left_iff.2 pieces, rfl, bounds⟩

/-- A comment keeps its hyphens at the end of a piece, where the line that it ran to is gone. -/
theorem split_of_tokenize_hyphens :
    let sql := "a;;b --\r\n;"
    let a : Token := ⟨.identifier, "a", ⟨0, 1, 1⟩⟩
    let b : Token := ⟨.identifier, "b", ⟨3, 1, 4⟩⟩
    split sql = .ok ["a", "b --"] ∧ List.Forall₂ (IsPiece sql) ["a", "b --"] [[a], [b]] := by
  intro sql a b
  let semi (p : Position) : Token := ⟨.operator, ";", p⟩
  have cut : tokenize .mysql sql = .ok [a, semi ⟨1, 1, 2⟩, semi ⟨2, 1, 3⟩, b, semi ⟨9, 2, 1⟩] :=
    Parser.eq_ok_of_toOption (by decide +kernel)
  obtain ⟨pieces, answer, all, -⟩ := split_of_tokenize cut (by decide) (by decide +kernel)
  obtain rfl : ["a", "b --"] = pieces :=
    Except.ok.inj ((Parser.eq_ok_of_toOption (by decide +kernel)).symm.trans answer)
  exact ⟨answer, all⟩

end Script
end TableDdl
