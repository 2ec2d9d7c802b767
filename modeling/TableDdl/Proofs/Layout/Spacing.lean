import TableDdl.Proofs.Layout.Parts
import TableDdl.Proofs.Layout.Tokens

/-!
# Spacing

Layouts put next to each other are spaced if the first ends in an opening mark or a space, or the
second begins with a space or a mark that may follow anything.
-/
namespace TableDdl

/-- The piece may follow any other. -/
def Piece.attaches : Piece → Bool
  | .lexeme l => l.attaches
  | .space => true

/-- Any piece may follow. -/
def Piece.isOpen : Piece → Bool
  | .lexeme l => l.isOpen
  | .space => true

namespace Layout

variable {α : Type} {a b : Layout}

/-- The layout may follow any other, where it is not empty. -/
def Opens (l : Layout) : Prop := ∀ p ∈ l.head?, p.attaches = true

/-- Any layout may follow this one. -/
def Closes (l : Layout) : Prop := ∀ p ∈ l.getLast?, p.isOpen = true

/-- The layout may follow any other, and is not empty. -/
def Begins (l : Layout) : Prop := ∃ p ∈ l.head?, p.attaches = true

theorem Begins.append (h : Begins a) (b : Layout) : Begins (a ++ b) := by
  obtain ⟨p, first, attaches⟩ := h
  exact ⟨p, List.mem_head?_append_of_mem_head? first, attaches⟩

theorem Begins.opens (h : Begins a) : Opens a := by
  obtain ⟨p, first, attaches⟩ := h
  intro q hq
  obtain rfl : p = q := Option.mem_unique first hq
  exact attaches

theorem begins_space : Begins space := ⟨.space, rfl, rfl⟩

theorem begins_comma : Begins (symbol ",") := ⟨_, rfl, rfl⟩

theorem begins_parenthesized (l : Layout) : Begins (parenthesized l) := by
  have first : Begins (symbol "(") := ⟨_, rfl, rfl⟩
  exact (first.append l).append _

@[simp] theorem opens_nil : Opens [] := nofun

@[simp] theorem opens_space_append (b : Layout) : Opens (space ++ b) := (begins_space.append b).opens

@[simp] theorem opens_space : Opens space := opens_space_append []

@[simp] theorem opens_parenthesized (l : Layout) : Opens (parenthesized l) :=
  (begins_parenthesized l).opens

theorem Opens.append (ha : Opens a) (hb : Opens b) : Opens (a ++ b) := by
  intro p hp
  cases a with
  | nil => exact hb p hp
  | cons q a => exact ha p hp

@[simp] theorem opens_given (part : Option α) (f : α → Layout) : Opens (given part f) := by
  cases part <;> simp [given]

@[simp] theorem opens_onlyIf (holds : Bool) (part : Layout) : Opens (onlyIf holds part) := by
  cases holds <;> simp [onlyIf]

@[simp] theorem opens_appended (parts : List Layout) : Opens (appended parts) := by
  cases parts <;> simp [appended]

@[simp] theorem closes_nil : Closes [] := nofun

@[simp] theorem closes_append_space (a : Layout) : Closes (a ++ space) := by
  intro p hp
  obtain rfl : Piece.space = p := by simpa [space] using hp
  rfl

@[simp] theorem closes_append_append_space (a b : Layout) : Closes (a ++ (b ++ space)) := by
  rw [← List.append_assoc]
  exact closes_append_space _

@[simp] theorem closes_space : Closes space := closes_append_space []

@[simp] theorem closes_paren : Closes (symbol "(") := by
  rintro p hp
  obtain rfl := Option.some.inj hp
  rfl

@[simp] theorem spaced_append (h : Closes a ∨ Opens b) :
    Spaced (a ++ b) ↔ Spaced a ∧ Spaced b := by
  have meets : ∀ p ∈ a.getLast?, ∀ q ∈ b.head?, p.meets q = true := by
    intro p hp q hq
    rcases h with h | h
    · have isOpen := h p hp
      cases p with
      | space => cases q <;> rfl
      | lexeme l =>
        cases q with
        | space => rfl
        | lexeme l' => simp_all [Piece.meets, Lexeme.meets, Piece.isOpen]
    · have attaches := h q hq
      cases q with
      | space => cases p <;> rfl
      | lexeme l' =>
        cases p with
        | space => rfl
        | lexeme l => simp_all [Piece.meets, Lexeme.meets, Piece.attaches]
  simp only [Spaced, List.isChain_append]
  exact ⟨fun h => ⟨h.1, h.2.1⟩, fun h => ⟨h.1, h.2, meets⟩⟩

theorem spaced_singleton (p : Piece) : Spaced [p] := List.isChain_singleton p

@[simp] theorem spaced_nil : Spaced [] := .nil

@[simp] theorem spaced_space : Spaced space := spaced_singleton _

@[simp] theorem spaced_word (text : String) : Spaced (word text) := spaced_singleton _

@[simp] theorem spaced_symbol (text : String) : Spaced (symbol text) := spaced_singleton _

@[simp] theorem spaced_name (text : String) : Spaced (name text) := spaced_singleton _

@[simp] theorem spaced_string (content : String) : Spaced (string content) := spaced_singleton _

@[simp] theorem spaced_integer (n : Nat) : Spaced (integer n) := spaced_singleton _

@[simp] theorem spaced_number (x : Number.Binary64) : Spaced (number x) := spaced_singleton _

@[simp] theorem spaced_boolean (b : Bool) : Spaced (boolean b) := spaced_singleton _

@[simp] theorem spaced_parenthesized (l : Layout) : Spaced (parenthesized l) ↔ Spaced l := by
  have last : Opens (symbol ")") := Begins.opens ⟨_, rfl, rfl⟩
  simp [-List.append_assoc, parenthesized, last]

@[simp] theorem spaced_given (part : Option α) (f : α → Layout) :
    Spaced (given part f) ↔ ∀ x ∈ part, Spaced (f x) := by
  cases part <;> simp [given]

@[simp] theorem spaced_onlyIf (holds : Bool) (part : Layout) :
    Spaced (onlyIf holds part) ↔ (holds = true → Spaced part) := by
  cases holds <;> simp [onlyIf]

@[simp] theorem spaced_appended (parts : List Layout) :
    Spaced (appended parts) ↔ ∀ l ∈ parts, Spaced l := by
  induction parts with
  | nil => simp [appended]
  | cons l parts ih =>
    have unfolded : appended (l :: parts) = space ++ l ++ appended parts := rfl
    simp [-List.append_assoc, unfolded, ih]

theorem spaced_joined {separator : Layout} (opens : Begins separator) (closes : Closes separator)
    (spaced : Spaced separator) {ls : List Layout} :
    Spaced (joined separator ls) ↔ ∀ l ∈ ls, Spaced l := by
  have closesBefore (l : Layout) : Closes (l ++ separator) := by
    obtain ⟨p, first, -⟩ := opens
    intro q hq
    refine closes q ?_
    cases separator with
    | nil => cases first
    | cons p ps => simpa using hq
  induction ls with
  | nil => simp
  | cons l ls ih =>
    cases ls with
    | nil => simp [joined]
    | cons m ls =>
      simp [-List.append_assoc, joined, closesBefore, opens.opens, spaced, ih]

@[simp] theorem spaced_commaSeparated (items : List Layout) :
    Spaced (commaSeparated items) ↔ ∀ l ∈ items, Spaced l :=
  spaced_joined (begins_comma.append _) (by simp) (by simp [-List.append_assoc])

@[simp] theorem spaced_names (texts : List String) : Spaced (names texts) := by
  simp [names]

@[simp] theorem spaced_words (texts : List String) : Spaced (words texts) :=
  (spaced_joined begins_space (by simp) (by simp)).2 (by simp)

@[simp] theorem spaced_spelled [Spelled α] (value : α) : Spaced (spelled value) := spaced_words _

@[simp] theorem spaced_setting (key : List String) (value : Layout) :
    Spaced (setting key value) ↔ Spaced value := by
  simp [-List.append_assoc, setting]

@[simp] theorem spaced_collateClause (n : String) : Spaced (collateClause n) := by
  simp [-List.append_assoc, collateClause]

@[simp] theorem spaced_visibility (visible : Bool) : Spaced (visibility visible) :=
  spaced_word _

end Layout
end TableDdl
