import TableDdl.Proofs.Grammar.Leftover
import TableDdl.Proofs.Grammar.Sides
import TableDdl.Proofs.RoundTrip.Renders
import TableDdl.Proofs.Script.Pieces

/-!
# Scripts of one statement

A script without semicolons, or with one as its last token, has one entry. Its piece and the whole
text are parsed alike, except where a text that is no statement ends in two hyphens: cut off behind
them, they are a comment.
-/
namespace TableDdl

open Scan Text

variable {α : Type} {x : α} {g ts : List Token} {semi t : Token} {sql text : String}

theorem Token.eq_of_isHyphen (isHyphen : t.isHyphen = true) :
    t.kind = .operator ∧ t.text = "-" := by
  simpa [Token.isHyphen] using isHyphen

theorem Token.spells_of_isSemicolon (isSemi : semi.isSemicolon = true) :
    semi.spells ";" = true := by
  obtain ⟨kind, text⟩ := eq_of_isSemicolon isSemi
  simp [spells, isWord, kind, text]

theorem Token.isSemicolon_of_spells (sound : t.Sound .mysql) (spells : t.spells ";" = true) :
    t.isSemicolon = true := by
  obtain ⟨kind, text⟩ := Token.operator_of_spells sound (by decide) spells
  simp [isSemicolon, kind, text]

namespace EntryPoint

/-- A phrase leaves a semicolon after it over. -/
theorem read_append_semicolon (entry : EntryPoint α) (isSemi : semi.isSemicolon = true)
    (calls : Nat) (g : List Token) : entry.rule.read calls (.start (g ++ [semi])) =
      (entry.rule.read calls (.start g)).extend [semi] := by
  have refused : ∀ terminal : Terminal, (terminal != .literal ";") = true →
      ∀ first ∈ [semi].head?, terminal.accept Keywords.mysql first = none := by
    rintro terminal other _ ⟨⟩
    obtain ⟨kind, text⟩ := Token.eq_of_isSemicolon isSemi
    refine Option.eq_none_iff_forall_ne_some.2 fun value accepted => ?_
    rw [Terminal.eq_of_accept_operator kind accepted, text] at other
    simp at other
  have named : ∀ {β : Type} (name : Nonterminal β), name.rule.uses (· != .literal ";") = true := by
    intro β name
    cases name <;> rfl
  have own : entry.rule.uses (· != .literal ";") = true := by cases entry <;> rfl
  exact Rule.read_extend refused named own entry.isLocal_rule calls (.start g)

theorem parseTokens_append_semicolon (entry : EntryPoint α) (isSemi : semi.isSemicolon = true)
    (sound : ∀ t ∈ g, t.Sound .mysql) (free : Script.Undivided g) :
    Parser.parseTokens .mysql entry.rule sql (g ++ [semi]) = .ok x ↔
      Parser.parseTokens .mysql entry.rule text g = .ok x := by
  rw [Parser.parseTokens_iff_read, Parser.parseTokens_iff_read, entry.read_append_semicolon isSemi]
  constructor
  · rintro ⟨next, read, ended⟩
    cases body : entry.rule.read Parser.calls (.start g) with
    | matched y mid =>
      rw [body] at read
      obtain ⟨rfl, rfl⟩ := Outcome.matched.inj read
      refine ⟨mid, rfl, .inl ?_⟩
      rcases ended with none | ⟨t, one, -⟩
      · exact absurd none (List.append_ne_nil_of_right_ne_nil _ (List.cons_ne_nil semi []))
      · exact (List.append_eq_singleton_iff.1 one).elim And.left fun h => nomatch h.2
    | failed f => rw [body] at read; cases read
    | diverged => rw [body] at read; cases read
  · rintro ⟨mid, read, ended⟩
    have spells := Token.spells_of_isSemicolon isSemi
    refine ⟨mid.extend [semi], by rw [read]; rfl, .inr ⟨semi, ?_, spells⟩⟩
    rcases ended with ended | ⟨t, ended, spells⟩
    · simp [Cursor.extend, ended]
    · obtain ⟨taken, whole, -⟩ := Rule.reaches_of_read read
      have mem : t ∈ g := by
        have same : g = taken ++ mid.rest := whole
        simp [same, ended]
      exact absurd (Token.isSemicolon_of_spells (sound t mem) spells) (by simp [free t mem])

/-- No phrase has two hyphens side by side as operators. -/
theorem hyphensApart (entry : EntryPoint α)
    (parsed : Parser.parseTokens .mysql entry.rule sql ts = .ok x) : HyphensApart ts := by
  obtain ⟨mid, read, ended⟩ := Parser.parseTokens_iff_read.1 parsed
  have marked : ∀ (t : Token) (terminal : Terminal) (x : String), t.isHyphen = true →
      terminal.accept Keywords.mysql t = some x → (terminal == .literal "-") = true := by
    intro t terminal x isHyphen accepted
    obtain ⟨kind, text⟩ := Token.eq_of_isHyphen isHyphen
    rw [Terminal.eq_of_accept_operator kind accepted, text]
    simp
  have named : ∀ {β : Type} (name : Nonterminal β),
      name.rule.keepsApart (· == .literal "-") = true ∧
        name.rule.sides (· == .literal "-") = ⟨false, false, false⟩ := by
    intro β name
    cases name <;> exact ⟨rfl, rfl⟩
  have own : entry.rule.keepsApart (· == .literal "-") = true := by cases entry <;> rfl
  obtain ⟨taken, whole, flanked⟩ := Rule.flanked_of_read marked named own read
  have whole : ts = taken ++ mid.rest := whole
  rw [whole]
  rcases ended with ended | ⟨t, ended, spells⟩
  · rw [ended, List.append_nil]
    exact flanked.apart
  · rw [ended]
    refine List.isChain_append.2 ⟨flanked.apart, .singleton t, ?_⟩
    rintro _ _ _ ⟨⟩ ⟨-, isHyphen⟩
    obtain ⟨kind, text⟩ := Token.eq_of_isHyphen isHyphen
    simp [Token.spells, Token.isWord, kind, text] at spells

end EntryPoint

namespace Script

/-- The tokens of one statement, and a semicolon or nothing. -/
theorem exists_undivided (some : ∃ t ∈ ts, t.isSemicolon = false)
    (single : ∀ t ∈ ts.dropLast, t.isSemicolon = false) :
    ∃ g, g ≠ [] ∧ Undivided g ∧
      (ts = g ∨ ∃ semi : Token, semi.isSemicolon = true ∧ ts = g ++ [semi]) := by
  obtain ⟨t, mem, other⟩ := some
  rcases undivided_or ts with free | ⟨g, semi, later, rfl, free, isSemi⟩
  · exact ⟨ts, List.ne_nil_of_mem mem, free, .inl rfl⟩
  · obtain rfl : later = [] := by
      refine Classical.byContradiction fun more => ?_
      have inside : semi ∈ (g ++ semi :: later).dropLast := by
        rw [List.dropLast_append_cons, List.dropLast_cons_of_ne_nil more]
        simp
      simp [single semi inside] at isSemi
    refine ⟨g, ?_, free, .inr ⟨semi, isSemi, rfl⟩⟩
    rintro rfl
    obtain rfl : t = semi := by simpa using mem
    simp [other] at isSemi

/-- The one piece of such a text. Without hyphens side by side it has the tokens of the
statement. -/
theorem split_of_single (cut : tokenize .mysql sql = .ok ts) (nonempty : g ≠ [])
    (free : Undivided g)
    (single : ts = g ∨ ∃ semi : Token, semi.isSemicolon = true ∧ ts = g ++ [semi]) :
    ∃ piece, split sql = .ok [piece] ∧ (HyphensApart g → IsPiece sql piece g) := by
  have lexes := lexes_of_tokenize cut
  have filled : g.isEmpty = false := by simpa using nonempty
  have cutting : split sql = .ok ((slicesFrom 0 false ts).map (Slice.piece sql.toList)) := by
    rw [split, cut, Except.map, piecesFrom_eq_map]
  rcases single with rfl | ⟨semi, isSemi, rfl⟩
  · have piece : Slice.piece sql.toList ⟨0, none⟩ = String.ofList (trim sql.toList) :=
      Slice.piece_rest [] sql.toList
    rw [slicesFrom_of_undivided free, filled, if_neg Bool.false_ne_true, List.map_singleton,
      piece] at cutting
    exact ⟨_, cutting, fun apart =>
      isPiece_of_lexes lexes free (List.infix_refl _) fun _ _ _ => .inr apart⟩
  · obtain ⟨body, rest, whole, same, after, front⟩ := lexes.divide isSemi
    have start : Position.start.offset = byteLength [] := rfl
    have stop : semi.position.offset = byteLength body :=
      (offset_semicolon start (congrArg Token.position same)).1
    have piece : Slice.piece sql.toList ⟨0, some semi.position.offset⟩ =
        String.ofList (trim body) := by
      rw [whole, stop]
      exact Slice.piece_between [] body (';' :: rest)
    have slices : slicesFrom 0 false (g ++ [semi]) = [⟨0, some semi.position.offset⟩] := by
      rw [slicesFrom_semicolon free isSemi, filled, if_neg Bool.false_ne_true]
      rfl
    rw [slices, List.map_singleton, piece] at cutting
    refine ⟨_, cutting, fun apart => ?_⟩
    exact isPiece_of_lexes (front.alone after (.inr apart)) free ⟨[], ';' :: rest, whole.symm⟩
      fun _ _ _ => .inr apart

/-- A text of one statement, with a semicolon after it or none, has one entry, and is accepted
just where the entry is and no two hyphens are operators side by side. -/
theorem parse_of_single (cut : tokenize .mysql sql = .ok ts)
    (some : ∃ t ∈ ts, t.isSemicolon = false)
    (single : ∀ t ∈ ts.dropLast, t.isSemicolon = false) :
    ∃ piece result, Script.parse .mysql sql = [(piece, result)] ∧
      ∀ s, Statement.parse .mysql sql = .ok s ↔ result = .ok s ∧ HyphensApart ts := by
  obtain ⟨g, nonempty, free, whole⟩ := exists_undivided some single
  obtain ⟨piece, cutting, isPiece⟩ := split_of_single cut nonempty free whole
  refine ⟨piece, Statement.parse .mysql piece, by rw [Script.parse, cutting]; rfl, fun s => ?_⟩
  have parsed : Statement.parse .mysql sql =
      Parser.parseTokens .mysql EntryPoint.statement.rule sql ts := by
    rw [Statement.parse, Parser.parse, cut, Except.bind, EntryPoint.rule]
  have body : Parser.parseTokens .mysql EntryPoint.statement.rule sql ts = .ok s ↔
      Parser.parseTokens .mysql EntryPoint.statement.rule sql g = .ok s := by
    rcases whole with rfl | ⟨semi, isSemi, rfl⟩
    · rfl
    · exact EntryPoint.statement.parseTokens_append_semicolon isSemi
        (fun t ht => (scanned_of_tokenize cut).1 t (List.mem_append_left _ ht)) free
  -- Without hyphens side by side the piece has the tokens of the statement, at other places.
  have alike (apart : HyphensApart ts) :
      Statement.parse .mysql sql = .ok s ↔ Statement.parse .mysql piece = .ok s := by
    have inside : HyphensApart g := by
      rcases whole with rfl | ⟨semi, -, rfl⟩
      · exact apart
      · exact apart.left_of_append
    obtain ⟨us, again, same, -⟩ := (isPiece inside).tokens
    rw [parsed, body, Statement.parse, Parser.parse, again, Except.bind]
    exact (Parser.parseTokens_anywhere same).symm
  constructor
  · intro accepted
    have apart : HyphensApart ts := EntryPoint.statement.hyphensApart (parsed.symm.trans accepted)
    exact ⟨(alike apart).1 accepted, apart⟩
  · rintro ⟨accepted, apart⟩
    exact (alike apart).2 accepted

/-- A comment with a semicolon in it stands before the semicolon that ends the statement. -/
theorem parse_of_single_comment :
    let sql := "ALTER TABLE t DROP x -- - ;\n;\r\n"
    let s : Statement := .alterTable ⟨⟨none, "t"⟩, [.dropColumn "x"], []⟩
    Statement.parse .mysql sql = .ok s ∧
      Script.parse .mysql sql = [("ALTER TABLE t DROP x -- - ;", .ok s)] := by
  intro sql s
  have cut : tokenize .mysql sql = .ok [⟨.keyword, "ALTER", ⟨0, 1, 1⟩⟩,
      ⟨.keyword, "TABLE", ⟨6, 1, 7⟩⟩, ⟨.identifier, "t", ⟨12, 1, 13⟩⟩,
      ⟨.keyword, "DROP", ⟨14, 1, 15⟩⟩, ⟨.identifier, "x", ⟨19, 1, 20⟩⟩,
      ⟨.operator, ";", ⟨28, 2, 1⟩⟩] := Parser.eq_ok_of_toOption (by decide +kernel)
  have accepted : Statement.parse .mysql sql = .ok s :=
    Parser.eq_ok_of_toOption (by decide +kernel)
  have cutting : split sql = .ok ["ALTER TABLE t DROP x -- - ;"] :=
    Parser.eq_ok_of_toOption (by decide +kernel)
  obtain ⟨piece, result, entries, alike⟩ := parse_of_single cut (by decide) (by decide)
  obtain ⟨rfl, -⟩ := (alike s).1 accepted
  rw [Script.parse, cutting] at entries
  obtain ⟨rfl, -⟩ : "ALTER TABLE t DROP x -- - ;" = piece ∧ _ := by simpa using entries
  exact ⟨accepted, by rw [Script.parse, cutting]; exact entries⟩

/-- Two hyphens before the semicolon are no comment in the text, and one at the end of the
piece. -/
theorem parse_hyphens_semicolon :
    let sql := "ALTER TABLE t DROP x --;"
    let s : Statement := .alterTable ⟨⟨none, "t"⟩, [.dropColumn "x"], []⟩
    ∃ ts, tokenize .mysql sql = .ok ts ∧ (∃ t ∈ ts, t.isSemicolon = false) ∧
      (∀ t ∈ ts.dropLast, t.isSemicolon = false) ∧
      Script.parse .mysql sql = [("ALTER TABLE t DROP x --", .ok s)] ∧
      Statement.parse .mysql sql ≠ .ok s := by
  intro sql s
  have cutting : split sql = .ok ["ALTER TABLE t DROP x --"] :=
    Parser.eq_ok_of_toOption (by decide +kernel)
  have accepted : Statement.parse .mysql "ALTER TABLE t DROP x --" = .ok s :=
    Parser.eq_ok_of_toOption (by decide +kernel)
  refine ⟨[⟨.keyword, "ALTER", ⟨0, 1, 1⟩⟩, ⟨.keyword, "TABLE", ⟨6, 1, 7⟩⟩,
    ⟨.identifier, "t", ⟨12, 1, 13⟩⟩, ⟨.keyword, "DROP", ⟨14, 1, 15⟩⟩,
    ⟨.identifier, "x", ⟨19, 1, 20⟩⟩, ⟨.operator, "-", ⟨21, 1, 22⟩⟩,
    ⟨.operator, "-", ⟨22, 1, 23⟩⟩, ⟨.operator, ";", ⟨23, 1, 24⟩⟩],
    Parser.eq_ok_of_toOption (by decide +kernel), by decide, by decide, ?_,
    Parser.ne_ok_of_toOption (by decide +kernel)⟩
  rw [Script.parse, cutting]
  exact congrArg (fun result => [(_, result)]) accepted

end Script
end TableDdl
