import TableDdl.Proofs.RoundTrip.Codec
import TableDdl.Proofs.RoundTrip.Expressions

/-!
# Texts in parentheses

What stands in parentheses and was replayed reads back wherever it stands, so it has a codec. The
written text is as tame as the tokens that were read.
-/
namespace TableDdl

open Text Writes

variable {α : Type}

namespace Number

/-- A number without a sign is written without one. -/
theorem write_of_unsigned {text : List Char} {x : Binary64}
    (read : Binary64.ofText? text = some x) (unsigned : text.head? ≠ some '-') :
    ∃ c cs, sqlFormat.write x = c :: cs ∧ c.isDigit = true := by
  obtain ⟨d, decimal, value⟩ := Option.bind_eq_some_iff.1 read
  have positive : d.negative = false := by
    have sign : (splitSign text).1 = false := by
      unfold splitSign
      split
      · simp at unsigned
      · rfl
      · rfl
    simp only [decimal?, Option.ite_none_left_eq_some, Option.map_eq_some_iff] at decimal
    obtain ⟨-, e, -, rfl⟩ := decimal
    exact sign
  have negative := negative_of_ofDecimal? value
  obtain ⟨whole, fraction, written, some, digits, -⟩ := magnitude_eq x
  obtain ⟨c, rest, rfl⟩ := List.exists_cons_of_ne_nil some
  obtain ⟨tail, text⟩ : ∃ tail, plainText (c :: rest) fraction = c :: tail := by
    simp only [plainText]
    split <;> exact ⟨_, rfl⟩
  refine ⟨c, tail, ?_, digits c (by simp)⟩
  rw [Format.write, negative, positive, written, text]
  rfl

end Number

namespace Renders

variable {t : Token} {l : Lexeme}

/-- Where the written text ends an operand, so did the token. -/
theorem endsOperand (h : Renders t l) (ends : l.token.endsOperand Keywords.mysql = true) :
    t.endsOperand Keywords.mysql = true := by
  have named {name : String} (accepted : Terminal.identifier.accept Keywords.mysql t = some name) :
      t.endsOperand Keywords.mysql = true := by
    cases kind : t.kind with
    | keyword =>
      have free : Keywords.mysql.isReserved t.text = false := by
        cases reserved : Keywords.mysql.isReserved t.text with
        | false => rfl
        | true => simp [Terminal.accept, kind, reserved] at accepted
      simp [Token.endsOperand, kind, free]
    | identifier => simp [Token.endsOperand, kind]
    | _ => simp [Terminal.accept, kind] at accepted
  cases h with
  | @word text kind same _ =>
    by_cases keyword : Keywords.mysql.isKeyword text = true
    · have words : Token.valueWords.any (sameWord text) = Token.valueWords.any (sameWord t.text) :=
        congrArg Token.valueWords.any (funext fun word => (sameWord_congr same word).symm)
      simp only [Token.endsOperand, Lexeme.token, Lexeme.kind, Scan.wordKind, Lexeme.text,
        String.ofList_toList, keyword, if_true] at ends
      simpa [Token.endsOperand, kind, isReserved_congr same, ← words] using ends
    · have free : Keywords.mysql.isReserved t.text = false := by
        rw [isReserved_congr same]
        simp [Keywords.isReserved_eq, keyword]
      simp [Token.endsOperand, kind, free]
  | symbol kind text _ =>
    simpa [Token.endsOperand, kind, text, Lexeme.token, Lexeme.kind, Lexeme.text] using ends
  | unequal _ _ =>
    have never : (Lexeme.symbol "<>").token.endsOperand Keywords.mysql = false := by decide
    rw [never] at ends
    cases ends
  | name accepted => exact named accepted
  | head accepted _ => exact named accepted
  | string accepted =>
    have kind : t.kind = .string := by
      simp only [Terminal.accept, Option.ite_none_right_eq_some] at accepted
      exact accepted.1
    simp [Token.endsOperand, kind]
  | number kind _ => simp [Token.endsOperand, kind]

/-- A sign is written only where one was read. -/
theorem unsigned (h : Renders t l) (unsigned : t.isSigned = false) : l.token.isSigned = false := by
  cases h with
  | @number x kind text =>
    have bare : t.text.toList.head? ≠ some '-' := by
      intro signed
      simp [Token.isSigned, kind, signed] at unsigned
    obtain ⟨c, cs, written, digit⟩ := Number.write_of_unsigned text bare
    simp only [Token.isSigned, Lexeme.token, Lexeme.kind, Lexeme.text, String.toList_ofList, written,
      List.head?_cons, Option.any_some, beq_self_eq_true, Bool.true_and, Bool.or_eq_false_iff,
      beq_eq_false_iff_ne]
    constructor <;> (rintro rfl; revert digit; decide)
  | _ => exact Edges.isSigned_of_shape (by simp [Lexeme.shape])

theorem all_writable {taken : List Token} {ls : List Lexeme} (h : List.Forall₂ Renders taken ls)
    (sound : ∀ t ∈ taken, t.Sound Keywords.mysql) : ∀ l ∈ ls, l.Writable := by
  induction h with
  | nil => simp
  | cons first _ ih =>
    obtain ⟨here, later⟩ := List.forall_mem_cons.1 sound
    exact List.forall_mem_cons.2 ⟨first.writable here, ih later⟩

theorem tame {taken : List Token} {ls : List Lexeme} (h : List.Forall₂ Renders taken ls)
    (scanned : Scanned Keywords.mysql taken) : Tame ls := by
  obtain ⟨-, chain⟩ := scanned
  induction h with
  | nil => exact .nil
  | @cons t l ts ls first later ih =>
    rw [List.isChain_cons] at chain
    refine List.isChain_cons.2 ⟨fun m hm ends => ?_, ih chain.2⟩
    cases later with
    | nil => simp at hm
    | @cons u m' us ms second _ =>
      obtain rfl : m' = m := by simpa using hm
      exact second.unsigned (chain.1 u (by simp) (first.endsOperand ends))

end Renders

theorem Scanned.of_append_left {keywords : Keywords} {ts ts' : List Token}
    (h : Scanned keywords (ts ++ ts')) : Scanned keywords ts :=
  ⟨fun t ht => h.1 t (List.mem_append_left ts' ht), h.2.left_of_append⟩

namespace Edges

def enclosed : Edges := ⟨[some (.symbol "(")], [], true⟩

end Edges

namespace Replay

variable {r : DdlRule α} {f : Bool} {W : α → Written → Prop}

/-- A rule in parentheses that is replayed has a codec. -/
def codec (h : ∀ calls, Replay calls r f W) : Codec (Grammar.parenthesized r) (Enclosed W) where
  edges := .enclosed
  coherent := true
  written {calls c next x} _ scanned read := by
    obtain ⟨taken, u, writes, loose, whole, renders, takes⟩ :=
      written_parenthesized (h calls) scanned.1 read
    rw [whole] at scanned
    have before := scanned.of_append_left
    refine ⟨enclosed u, ⟨u, writes, rfl⟩, ?_, ?_, ?_⟩
    · exact ⟨by simp [enclosed, Edges.enclosed, Lexeme.shape], by simp [Edges.enclosed]⟩
    · exact ⟨fun l hl => .inl (Renders.all_writable renders before.1 l hl),
        Renders.tame renders before⟩
    · intro good pos rest _
      simp only [enclosed, Written.good_append] at good
      exact takes good.1.2 pos rest

end Replay
end TableDdl
