import Mathlib.Data.List.Sort
import TableDdl.Proofs.Keyword.Extension

/-!
# Histories of a keyword table

A table comes from the default one by steps: a table of given words, an extension, the words of a
file. A step that fails leaves the table as it was. After every history the words are kept in one
form, and extensions act as unions of sets: their order does not matter, nor does repetition.
-/
namespace TableDdl.Keywords

open Text

variable {table other : Keywords} {words : List String}

/-- Capital letters, digits and underscores, with no digit in front. -/
def isKeptWord (word : String) : Bool :=
  match word.toList with
  | [] => false
  | c :: cs => (c.isUpper || c == '_') && cs.all fun d => d.isUpper || d.isDigit || d == '_'

/-- A word without the blanks around it. -/
def trimmed (word : String) : String := String.ofList (trim word.toList)

/-- Without the blanks around it, the word is one that a table can have. -/
def IsValid (word : String) : Prop := isPlainWord (trimmed word) = true

instance (word : String) : Decidable (IsValid word) := inferInstanceAs (Decidable (_ = true))

theorem normalize_of_isValid {word : String} (valid : IsValid word) :
    normalize word = .ok (upper (trimmed word)) := if_pos valid

theorem normalize_of_not_isValid {word : String} (odd : ¬ IsValid word) :
    normalize word = .error (.badKeyword (trimmed word)) := if_neg odd

theorem isKeptWord_upper {word : String} (plain : isPlainWord word = true) :
    isKeptWord (upper word) = true := by
  obtain ⟨c, cs, whole, first, others⟩ := isPlainWord_iff.1 plain
  simp only [isKeptWord, upper, String.toList_ofList, whole, List.map_cons, Bool.and_eq_true,
    List.all_map]
  constructor
  · rcases toUpper_cases c with ⟨-, upper⟩ | ⟨lower, same⟩
    · simp [upper]
    · simpa [same, isPlainStart, isAlpha_eq_isUpper lower] using first
  · refine List.all_eq_true.2 fun d hd => ?_
    have part := List.all_eq_true.1 others d hd
    rcases toUpper_cases d with ⟨-, upper⟩ | ⟨lower, same⟩
    · simp [upper]
    · simpa [same, isPlainPart, Char.isAlphanum, isAlpha_eq_isUpper lower] using part

/-- A table is given by its words. -/
theorem eq_of_mem_iff (same : ∀ x, x ∈ table.words ↔ x ∈ other.words) : table = other := by
  have words_eq : table.words = other.words :=
    List.Pairwise.eq_of_mem_iff table.ascending other.ascending same
  obtain ⟨ws, ascending, _, rfl⟩ := table
  obtain ⟨vs, ascending', _, rfl⟩ := other
  obtain rfl : ws = vs := words_eq
  rfl

theorem extend_of_isValid (valid : ∀ word ∈ words, IsValid word) :
    table.extend words = .ok ((words.map (upper ∘ trimmed)).foldl insert table) := by
  have kept : words.mapM normalize = .ok (words.map (upper ∘ trimmed)) := by
    induction words with
    | nil => rfl
    | cons word words ih =>
      rw [List.mapM_cons, normalize_of_isValid (valid word List.mem_cons_self),
        ih fun w hw => valid w (List.mem_cons_of_mem _ hw)]
      rfl
  rw [extend, kept, Except.map]

/-- The first word that is not valid decides, and the error names it. -/
theorem extend_of_not_isValid {before after : List String} {word : String}
    (valid : ∀ w ∈ before, IsValid w) (odd : ¬ IsValid word) :
    table.extend (before ++ word :: after) = .error (.badKeyword (trimmed word)) := by
  have stops : (before ++ word :: after).mapM normalize = .error (.badKeyword (trimmed word)) := by
    induction before with
    | nil =>
      rw [List.nil_append, List.mapM_cons, normalize_of_not_isValid odd]
      rfl
    | cons v before ih =>
      rw [List.cons_append, List.mapM_cons, normalize_of_isValid (valid v List.mem_cons_self),
        ih fun w hw => valid w (List.mem_cons_of_mem _ hw)]
      rfl
  rw [extend, stops, Except.map]

/-- A list has a first word that is not valid, unless all are. -/
theorem valid_or_first_odd (words : List String) :
    (∀ word ∈ words, IsValid word) ∨ ∃ before word after, words = before ++ word :: after ∧
      (∀ w ∈ before, IsValid w) ∧ ¬ IsValid word := by
  induction words with
  | nil => simp
  | cons v words ih =>
    by_cases valid : IsValid v
    · rcases ih with all | ⟨before, word, after, rfl, all, odd⟩
      · exact .inl (List.forall_mem_cons.2 ⟨valid, all⟩)
      · exact .inr ⟨v :: before, word, after, rfl, List.forall_mem_cons.2 ⟨valid, all⟩, odd⟩
    · exact .inr ⟨[], v, words, rfl, by simp, valid⟩

theorem extend_eq_error_iff {e : Error} : table.extend words = .error e ↔
    ∃ before word after, words = before ++ word :: after ∧ (∀ w ∈ before, IsValid w) ∧
      ¬ IsValid word ∧ e = .badKeyword (trimmed word) := by
  constructor
  · intro failed
    rcases valid_or_first_odd words with valid | ⟨before, word, after, rfl, valid, odd⟩
    · rw [extend_of_isValid valid] at failed
      cases failed
    · rw [extend_of_not_isValid valid odd] at failed
      exact ⟨before, word, after, rfl, valid, odd, (Except.error.inj failed).symm⟩
  · rintro ⟨before, word, after, rfl, valid, odd, rfl⟩
    exact extend_of_not_isValid valid odd

/-- Extensions act as unions. -/
theorem extend_extend {first second : List String} (valid : ∀ word ∈ first, IsValid word)
    (valid' : ∀ word ∈ second, IsValid word) :
    ∃ half whole, table.extend first = .ok half ∧ half.extend second = .ok whole ∧
      table.extend (first ++ second) = .ok whole ∧ table.extend (second ++ first) = .ok whole := by
  have both : ∀ word ∈ first ++ second, IsValid word := List.forall_mem_append.2 ⟨valid, valid'⟩
  have turned : ∀ word ∈ second ++ first, IsValid word := List.forall_mem_append.2 ⟨valid', valid⟩
  refine ⟨_, _, extend_of_isValid valid, extend_of_isValid valid', ?_, ?_⟩
  · rw [extend_of_isValid both, List.map_append, List.foldl_append]
  · rw [extend_of_isValid turned]
    refine congrArg _ (eq_of_mem_iff fun x => ?_)
    simp only [mem_words_foldl_insert, List.map_append, List.mem_append]
    tauto

/-- Words that the table has already change nothing. -/
theorem extend_eq_self (valid : ∀ word ∈ words, IsValid word)
    (known : ∀ word ∈ words, table.isKeyword (trimmed word) = true) :
    table.extend words = .ok table := by
  rw [extend_of_isValid valid]
  refine congrArg _ (eq_of_mem_iff fun x => ?_)
  rw [mem_words_foldl_insert, or_iff_left_iff_imp, List.mem_map]
  rintro ⟨word, mem, rfl⟩
  exact isKeyword_iff.1 (known word mem)

inductive Step
  | ofWords (words : List String)
  | extend (words : List String)
  | ofFile (content : Except FileFault ByteArray)

namespace Step

def result (table : Keywords) : Step → Except Error Keywords
  | .ofWords words => Keywords.ofWords words
  | .extend words => table.extend words
  | .ofFile content => Keywords.ofFile content

/-- A step that fails leaves the table as it was. -/
def apply (table : Keywords) (step : Step) : Keywords :=
  match step.result table with
  | .ok next => next
  | .error _ => table

/-- The table after a history that starts with the default one. -/
def run (steps : List Step) : Keywords := steps.foldl apply mysql

end Step

/-- All words have the form in which words are kept. -/
def IsKept (table : Keywords) : Prop := ∀ word ∈ table.words, isKeptWord word = true

theorem isKept_empty : empty.IsKept := by simp [IsKept, empty, build]

theorem isKept_mysql : mysql.IsKept := by
  have all : Keyword.ddlWords.all isKeptWord = true := by decide +kernel
  exact List.all_eq_true.1 all

theorem isKept_extend (kept : table.IsKept) (extended : table.extend words = .ok other) :
    other.IsKept := by
  intro x mem
  rcases (mem_words_extend extended).1 mem with old | ⟨word, -, new⟩
  · exact kept x old
  · by_cases valid : IsValid word
    · obtain rfl := Except.ok.inj ((normalize_of_isValid valid).symm.trans new)
      exact isKeptWord_upper valid
    · rw [normalize_of_not_isValid valid] at new
      cases new

theorem Step.isKept_result {step : Step} (kept : table.IsKept)
    (done : step.result table = .ok other) : other.IsKept := by
  cases step with
  | ofWords words => exact isKept_extend isKept_empty done
  | extend words => exact isKept_extend kept done
  | ofFile content =>
    simp only [result, Keywords.ofFile] at done
    split at done
    · cases done
    · split at done
      · cases done
      · exact isKept_extend isKept_mysql done

theorem Step.isKept_apply (kept : table.IsKept) (step : Step) : (step.apply table).IsKept := by
  rw [apply]
  split
  · exact isKept_result kept ‹_›
  · exact kept

theorem Step.isKept_run (steps : List Step) : (run steps).IsKept := by
  have folded (table : Keywords) (kept : table.IsKept) : (steps.foldl apply table).IsKept := by
    induction steps generalizing table with
    | nil => exact kept
    | cons step steps ih => exact ih _ (isKept_apply kept step)
  exact folded mysql isKept_mysql

/-- After every history the words are kept in one form, the reserved words are the keywords that
MySQL reserves, and the answers do not depend on letter case. Extensions act as unions, and they
fail at the first word that is not valid. -/
theorem consistent :
    (∀ steps : List Step,
      (∀ word ∈ (Step.run steps).words, isKeptWord word = true) ∧
      ∀ word : String,
        ((Step.run steps).isReserved word = true ↔
          (Step.run steps).isKeyword word = true ∧ upper word ∈ Keyword.reservedWords) ∧
        ∀ variant : String, sameWord word variant = true →
          (Step.run steps).isKeyword word = (Step.run steps).isKeyword variant ∧
          (Step.run steps).isReserved word = (Step.run steps).isReserved variant) ∧
    (∀ (table : Keywords) (first second : List String),
      (∀ word ∈ first, IsValid word) → (∀ word ∈ second, IsValid word) →
      ∃ half whole, table.extend first = .ok half ∧ half.extend second = .ok whole ∧
        table.extend (first ++ second) = .ok whole ∧ table.extend (second ++ first) = .ok whole ∧
        table.words ⊆ half.words ∧ table.words ⊆ whole.words) ∧
    (∀ (table : Keywords) (words : List String), (∀ word ∈ words, IsValid word) →
      (∀ word ∈ words, table.isKeyword (trimmed word) = true) → table.extend words = .ok table) ∧
    (∀ (table : Keywords) (words : List String) (e : Error),
      (table.extend words = .error e ↔
        ∃ before word after, words = before ++ word :: after ∧ (∀ w ∈ before, IsValid w) ∧
          ¬ IsValid word ∧ e = .badKeyword (trimmed word)) ∧
      (ofWords words = .error e ↔
        ∃ before word after, words = before ++ word :: after ∧ (∀ w ∈ before, IsValid w) ∧
          ¬ IsValid word ∧ e = .badKeyword (trimmed word))) := by
  refine ⟨fun steps => ⟨Step.isKept_run steps, fun word => ⟨?_, fun variant same => ?_⟩⟩,
    fun table first second valid valid' => ?_, fun table words valid known =>
      extend_eq_self valid known, fun table words e => ⟨extend_eq_error_iff, extend_eq_error_iff⟩⟩
  · rw [isReserved_iff, isKeyword_iff]
  · exact ⟨isKeyword_congr same _, isReserved_congr same _⟩
  · obtain ⟨half, whole, extended, extended', both, turned⟩ :=
      @extend_extend table first second valid valid'
    refine ⟨half, whole, extended, extended', both, turned, ?_, ?_⟩
    · exact fun x mem => (mem_words_extend extended).2 (.inl mem)
    · exact fun x mem => (mem_words_extend both).2 (.inl mem)

/-- A history with a file that is missing and a word that is none; then an extension in two steps,
in one and in the other order, and again by the same word. -/
theorem consistent_after_failures :
    let table := Step.run [.ofWords ["select", " From"], .extend ["1abc"], .ofFile (.error .missing)]
    let whole := (table.insert "SRID").insert "TO"
    (∀ word ∈ table.words, isKeptWord word = true) ∧
    table.isReserved "FROM" = table.isReserved "from" ∧
    (table.extend [" srid"]).bind (·.extend ["To"]) = .ok whole ∧
    table.extend ["To", " srid"] = .ok whole ∧
    whole.extend ["to"] = .ok whole ∧
    table.extend ["to", " 1abc", "2"] = .error (.badKeyword "1abc") := by
  intro table whole
  obtain ⟨kept, reserved⟩ := consistent.1
    [.ofWords ["select", " From"], .extend ["1abc"], .ofFile (.error .missing)]
  obtain ⟨half, all, extended, extended', both, turned, -⟩ :=
    consistent.2.1 table [" srid"] ["To"] (by decide) (by decide)
  obtain rfl : whole = all := Except.ok.inj both
  refine ⟨kept, ((reserved "FROM").2 "from" (by decide)).2, ?_, turned, ?_, ?_⟩
  · rw [extended]
    exact extended'
  · refine consistent.2.2.1 whole ["to"] (by decide) fun word mem => ?_
    obtain rfl := List.mem_singleton.1 mem
    exact isKeyword_iff.2 (mem_words_insert.2 (.inl rfl))
  · exact (consistent.2.2.2 table ["to", " 1abc", "2"] (.badKeyword "1abc")).1.2
      ⟨["to"], " 1abc", ["2"], rfl, by decide, by decide, rfl⟩

end TableDdl.Keywords
