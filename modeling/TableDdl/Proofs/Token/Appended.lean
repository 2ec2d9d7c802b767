import TableDdl.Proofs.Token.Comments
import TableDdl.Proofs.Token.Lexing

/-!
# Texts one after another

Where nothing at the end of a text is led astray by what comes next, the text has its own tokens
and then those of what comes next. What carries over is whether the next token may have a sign.
That holds before a line feed, and after one before any text.
-/
namespace TableDdl

open Scan

variable {keywords : Keywords} {signed : Bool} {p : Position} {c : Char} {cs x y : List Char}
  {ts us : List Token}

namespace Scan

/-- Wherever something of its own starts in the text, it is scanned as if the text did not go on
with `x`. -/
def SteadyWithin (x cs : List Char) : Prop :=
  ∀ c b, c :: b <:+ cs → isSpace c = false → Steadily x (c :: b)

theorem SteadyWithin.of_suffix {b : List Char} (h : SteadyWithin x cs) (suffix : b <:+ cs) :
    SteadyWithin x b :=
  fun c d within => h c d (within.trans suffix)

theorem stops_feed (cs : List Char) : Stops ('\n' :: cs) := by
  intro d hd
  obtain rfl := Option.some.inj hd
  decide

/-- Nothing looks past the end of a line, unless a carriage return stands there. -/
theorem steadyWithin_feed (free : '\r' ∉ cs) : SteadyWithin ('\n' :: x) cs := by
  intro c b suffix solid
  refine (stops_feed x).steadily (lineComment?_steady ?_ (by simp) (fun _ => rfl) (.inl rfl))
  intro last
  exact free (suffix.mem (List.mem_of_getLast? last))

/-- What a scanner takes before a line feed is the same with the line feed or more after it. -/
theorem Steady.of_feed {scanner : List Char → Option Split} {d : List Char}
    (short : Steady ['\n'] scanner d) (long : Steady ('\n' :: x) scanner d) :
    Steady x scanner (d ++ ['\n']) := by
  rw [Steady, List.append_assoc, List.singleton_append, long, short, Option.map_map]
  refine Option.map_congr fun s _ => ?_
  simp [goOn]

theorem steadily_of_feed (c : Char) (d : List Char) : Steadily x (c :: (d ++ ['\n'])) := by
  have last : (c :: (d ++ ['\n'])).getLast? = some '\n' := by
    rw [← List.cons_append, List.getLast?_concat]
  have other {e : List Char} (ends : e.getLast? ≠ some '\n') : c :: (d ++ ['\n']) ≠ e :=
    fun same => ends (same ▸ last)
  have short := stops_feed []
  have long := stops_feed x
  exact {
    comment := lineComment?_steady (by rw [last]; decide) (fun all => absurd all (other (by decide)))
      (fun all => absurd all (other (by decide))) (.inr ⟨'\n', by simp, by decide⟩)
    word := .of_feed (d := c :: d) (word?_steady short) (word?_steady long)
    number := fun signed => .of_feed (d := c :: d) (number?_steady short signed _)
      (number?_steady long signed _)
    operator := .of_feed (d := c :: d) (operator?_steady short) (operator?_steady long)
    slash := fun all => absurd all (other (by decide)) }

/-- Nothing looks past a line feed. -/
theorem steadyWithin_of_feed (ends : cs.getLast? = some '\n') : SteadyWithin x cs := by
  intro c b suffix solid
  obtain ⟨front, rfl⟩ := suffix
  rw [List.getLast?_append_of_ne_nil _ (List.cons_ne_nil c b)] at ends
  obtain ⟨d, same⟩ := List.getLast?_eq_some_iff.1 ends
  cases d with
  | nil =>
    obtain ⟨rfl, -⟩ := List.cons.inj same
    cases solid
  | cons _ d =>
    obtain ⟨rfl, rfl⟩ := List.cons.inj same
    exact steadily_of_feed c d

end Scan

/-- Whether a token after these may have a sign. -/
def signedAfter (keywords : Keywords) (signed : Bool) (ts : List Token) : Bool :=
  ts.foldl (fun _ t => !t.endsOperand keywords) signed

/-- The tokens of two texts one after another, or the error in the second one. -/
theorem Lexes.tokensFrom_append (h : Lexes keywords signed p cs ts) (steady : SteadyWithin x cs) :
    tokensFrom keywords signed p (cs ++ x) =
      (tokensFrom keywords (signedAfter keywords signed ts) (p.after cs) x).map (ts ++ ·) := by
  have cut {kind : Option Kind} {c : Char} {b taken rest : List Char} {signed : Bool}
      (steady : SteadyWithin x (c :: b)) (solid : isSpace c = false)
      (found : scan keywords signed (c :: b) = some ⟨kind, taken, rest⟩) :
      scan keywords signed (c :: b ++ x) = some ⟨kind, taken, rest ++ x⟩ :=
    (scan_goOn_iff (steady c b (List.suffix_refl _) solid) solid).2 found
  have left {kind : Option Kind} {cs taken rest : List Char} {signed : Bool}
      (found : scan keywords signed cs = some ⟨kind, taken, rest⟩) : rest <:+ cs :=
    ⟨taken, (scan_divides found).1⟩
  induction h with
  | @done signed p =>
    rw [List.nil_append, Position.after_nil]
    cases tokens : tokensFrom keywords signed p x <;> simp [signedAfter, tokens, Except.map]
  | space blank _ ih =>
    rw [List.cons_append, tokensFrom_space blank, ih (steady.of_suffix (List.suffix_cons _ _))]
    rfl
  | @comment _ p _ _ taken rest us solid found _ ih =>
    rw [tokensFrom_of_scan_eq_some (cut steady solid found)]
    simp only [ih (steady.of_suffix (left found)), ← Position.after_append, (scan_divides found).1]
  | @token _ p _ _ taken rest kind us solid found _ ih =>
    rw [tokensFrom_of_scan_eq_some (cut steady solid found)]
    simp only [ih (steady.of_suffix (left found)), ← Position.after_append, (scan_divides found).1]
    simp only [signedAfter, List.foldl_cons]
    cases tokensFrom keywords _ _ x <;> rfl

theorem Lexes.append (h : Lexes keywords signed p cs ts) (steady : SteadyWithin x cs)
    (later : Lexes keywords (signedAfter keywords signed ts) (p.after cs) x us) :
    Lexes keywords signed p (cs ++ x) (ts ++ us) := by
  refine lexes_of_tokensFrom ?_
  rw [h.tokensFrom_append steady, later.tokensFrom_eq]
  rfl

theorem Lexes.unplacedFrom_append (h : Lexes keywords signed p cs ts)
    (steady : SteadyWithin x cs) (q : Position) :
    unplacedFrom keywords signed p (cs ++ x) =
      (unplacedFrom keywords (signedAfter keywords signed ts) q x).map
        (ts.map Token.anywhere ++ ·) := by
  rw [unplacedFrom_eq keywords _ q (p.after cs) x, unplacedFrom, unplacedFrom,
    h.tokensFrom_append steady]
  cases tokensFrom keywords (signedAfter keywords signed ts) (p.after cs) x <;>
    simp [Except.map, Except.toOption]

end TableDdl
