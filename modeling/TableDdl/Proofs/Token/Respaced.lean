import TableDdl.Proofs.Grammar.Locality
import TableDdl.Proofs.RoundTrip.Parsing
import TableDdl.Proofs.Token.Retaken
import TableDdl.Proofs.Token.Trimming

/-!
# Spacing between tokens

Spaces, ends of lines and block comments may be put between the tokens of a text in place of what
stood there. As long as something is left between any two of them, the text has the same tokens,
and is read as before.
-/
namespace TableDdl

open Scan Text

variable {keywords : Keywords} {signed : Bool} {p : Position} {cs body : List Char}
  {ts us : List Token}

/-- What may stand between tokens: a blank, or a comment with an end mark only at its end. -/
inductive Spacer
  | blank (c : Char) (known : isSpace c = true)
  | comment (body : List Char) (closed : ¬ ['*', '/'] <:+: body)

def Spacer.text : Spacer → List Char
  | .blank c _ => [c]
  | .comment body _ => '/' :: '*' :: (body ++ ['*', '/'])

def spacing (w : List Spacer) : List Char := w.flatMap Spacer.text

theorem commentEnd?_body (closed : ¬ ['*', '/'] <:+: body) (cs : List Char) :
    commentEnd? (body ++ '*' :: '/' :: cs) = some (body ++ ['*', '/'], cs) := by
  induction body with
  | nil => rfl
  | cons c body ih =>
    have early : ∀ tail, c = '*' → body ++ '*' :: '/' :: cs = '/' :: tail → False := by
      rintro tail rfl slash
      cases body with
      | nil => simp at slash
      | cons d body =>
        obtain ⟨rfl, -⟩ := List.cons.inj slash
        exact closed ⟨[], body, rfl⟩
    have later : ¬ ['*', '/'] <:+: body := fun within => closed (within.trans ⟨[c], [], by simp⟩)
    rw [List.cons_append, commentEnd?.eq_3 c _ early, ih later]
    rfl

/-- Spacers in front of a text are dropped. -/
theorem Lexes.after_spacing {w : List Spacer}
    (h : Lexes keywords signed (p.after (spacing w)) cs ts) :
    Lexes keywords signed p (spacing w ++ cs) ts := by
  induction w generalizing p with
  | nil => exact h
  | cons s w ih =>
    rw [spacing, List.flatMap_cons, Position.after_append] at h
    rw [spacing, List.flatMap_cons, List.append_assoc]
    cases s with
    | blank c known => exact .space known (ih h)
    | comment body closed =>
      have found (rest : List Char) :
          scan keywords signed ('/' :: '*' :: (body ++ '*' :: '/' :: rest)) =
          some ⟨none, '/' :: '*' :: (body ++ ['*', '/']), rest⟩ := by
        rw [scan, commentEnd?_body closed]
        rfl
      have whole (rest : List Char) : (Spacer.comment body closed).text ++ rest =
          '/' :: '*' :: (body ++ '*' :: '/' :: rest) := by
        simp [Spacer.text]
      rw [whole]
      exact .comment (by decide) (found _) (ih h)

/-- No token that stands before a spacer looks at it. -/
theorem stops_spacing {w : List Spacer} (some : w ≠ []) (cs : List Char) :
    Stops (spacing w ++ cs) := by
  obtain ⟨s, w, rfl⟩ := List.exists_cons_of_ne_nil some
  cases s with
  | blank c known => exact stops_cons_of_blank (isBlank_of_isSpace known) _
  | comment body closed =>
    intro d hd
    obtain rfl : '/' = d := Option.some.inj hd
    decide

def respacedChars (spaced : List (Token × List Spacer)) : List Char :=
  spaced.flatMap fun q => q.1.text.toList ++ spacing q.2

/-- The texts of the tokens with the given spacing in front of the first one and after each. -/
def respaced (first : List Spacer) (spaced : List (Token × List Spacer)) : String :=
  String.ofList (spacing first ++ respacedChars spaced)

theorem Lexes.exists_respaced {spaced : List (Token × List Spacer)}
    (h : Lexes keywords signed p cs (spaced.map Prod.fst))
    (apart : ∀ q ∈ spaced.dropLast, q.2 ≠ []) (q : Position) :
    ∃ us, Lexes keywords signed q (respacedChars spaced) us ∧
      us.map Token.anywhere = (spaced.map Prod.fst).map Token.anywhere := by
  generalize tokens : spaced.map Prod.fst = ts at h
  induction h generalizing spaced q with
  | done =>
    obtain rfl := List.map_eq_nil_iff.1 tokens
    exact ⟨[], .done, rfl⟩
  | space _ _ ih => exact ih apart q tokens
  | comment _ _ _ ih => exact ih apart q tokens
  | @token signed p c cs taken rest kind later solid found _ ih =>
    obtain ⟨⟨t, w⟩, more, rfl, rfl, rfl⟩ := List.map_eq_cons_iff.1 tokens
    have within : ∀ q ∈ more.dropLast, q.2 ≠ [] := by
      intro q hq
      refine apart q ?_
      cases more with
      | nil => cases hq
      | cons _ _ => exact List.mem_cons_of_mem _ hq
    obtain ⟨us, lexes, same⟩ := ih within ((q.after taken).after (spacing w)) rfl
    -- A spacer stops every token, and only behind the last one there may be none.
    have stops : Stops (spacing w ++ respacedChars more) := by
      by_cases some : w = []
      · cases more with
        | nil => simpa [some, spacing, respacedChars] using stops_nil
        | cons _ _ => exact absurd some (apart _ List.mem_cons_self)
      · exact stops_spacing some _
    have again := scan_retake found stops
    obtain ⟨whole, nonempty⟩ := scan_divides found
    obtain ⟨d, ds, rfl⟩ := List.exists_cons_of_ne_nil nonempty
    obtain ⟨rfl, -⟩ := List.cons.inj whole
    refine ⟨⟨kind, String.ofList (d :: ds), q⟩ :: us, ?_, by simp [same, Token.anywhere]⟩
    have text : respacedChars ((⟨kind, String.ofList (d :: ds), p⟩, w) :: more) =
        d :: (ds ++ (spacing w ++ respacedChars more)) := by
      simp [respacedChars]
    rw [text]
    exact .token solid again lexes.after_spacing

/-- Spacing and block comments are invisible: with something between any two tokens, the text has
the same tokens, and every parser accepts it with the same tree as before or not at all. -/
theorem parse_respaced {text : String} {spaced : List (Token × List Spacer)} (first : List Spacer)
    (cut : tokenize keywords text = .ok (spaced.map Prod.fst))
    (apart : ∀ q ∈ spaced.dropLast, q.2 ≠ []) :
    (∃ us, tokenize keywords (respaced first spaced) = .ok us ∧
      us.map Token.anywhere = (spaced.map Prod.fst).map Token.anywhere) ∧
    ∀ {α : Type} (entry : EntryPoint α) (tree : α),
      Parser.parse keywords entry.rule (respaced first spaced) = .ok tree ↔
        Parser.parse keywords entry.rule text = .ok tree := by
  obtain ⟨us, lexes, same⟩ :=
    (lexes_of_tokenize cut).exists_respaced apart (Position.start.after (spacing first))
  have again : tokenize keywords (respaced first spaced) = .ok us := by
    rw [tokenize, respaced, String.toList_ofList]
    exact lexes.after_spacing.tokensFrom_eq
  refine ⟨⟨us, again, same⟩, fun entry tree => ?_⟩
  rw [Parser.parse, Parser.parse, again, cut]
  exact Parser.parseTokens_anywhere same

/-- A slash stands right before a comment, and the sign stays a part of the number. -/
theorem parse_respaced_slash :
    (∃ us, tokenize .mysql "/*x*/a //***/-1/*--*/\n" = .ok us ∧
      us.map Token.anywhere = [⟨.identifier, "a", .start⟩, ⟨.operator, "/", .start⟩,
        ⟨.number, "-1", .start⟩]) ∧
    ∀ tree, Parser.parse .mysql EntryPoint.expression.rule "/*x*/a //***/-1/*--*/\n" = .ok tree ↔
      Parser.parse .mysql EntryPoint.expression.rule "a/-1" = .ok tree := by
  let spaced : List (Token × List Spacer) := [
    (⟨.identifier, "a", ⟨0, 1, 1⟩⟩, [.blank ' ' rfl]),
    (⟨.operator, "/", ⟨1, 1, 2⟩⟩, [.comment ['*'] (by decide)]),
    (⟨.number, "-1", ⟨2, 1, 3⟩⟩, [.comment ['-', '-'] (by decide), .blank '\n' rfl])]
  have cut : tokenize .mysql "a/-1" = .ok (spaced.map Prod.fst) :=
    Parser.eq_ok_of_toOption (by decide +kernel)
  obtain ⟨tokens, same⟩ := parse_respaced [.comment ['x'] (by decide)] cut (by simp [spaced])
  exact ⟨tokens, same .expression⟩

end TableDdl
