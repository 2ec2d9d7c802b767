import TableDdl.Attribute

/-!
# Lexemes of layouts

Spaces do not count: the lexemes of a layout are those of its parts, in order.
-/
namespace TableDdl.Layout

variable {α : Type}

@[simp] theorem lexemes_nil : lexemes [] = [] := rfl

@[simp] theorem lexemes_space : lexemes space = [] := rfl

@[simp] theorem lexemes_word (text : String) : lexemes (word text) = [.word text] := rfl

@[simp] theorem lexemes_symbol (text : String) : lexemes (symbol text) = [.symbol text] := rfl

@[simp] theorem lexemes_name (text : String) : lexemes (name text) = [.name text] := rfl

@[simp] theorem lexemes_string (content : String) : lexemes (string content) = [.string content] :=
  rfl

@[simp] theorem lexemes_integer (n : Nat) : lexemes (integer n) = [.integer n] := rfl

@[simp] theorem lexemes_number (x : Number.Binary64) : lexemes (number x) = [.number x] := rfl

@[simp] theorem lexemes_boolean (b : Bool) :
    lexemes (boolean b) = [.word (if b then "TRUE" else "FALSE")] := rfl

@[simp] theorem lexemes_parenthesized (l : Layout) :
    lexemes (parenthesized l) = .symbol "(" :: lexemes l ++ [.symbol ")"] := by
  simp [parenthesized]

@[simp] theorem lexemes_flatMap (xs : List α) (f : α → Layout) :
    lexemes (xs.flatMap f) = xs.flatMap fun x => lexemes (f x) := by
  induction xs with
  | nil => rfl
  | cons x xs ih => simp [ih]

@[simp] theorem lexemes_given (part : Option α) (f : α → Layout) :
    lexemes (given part f) = part.elim [] fun x => lexemes (f x) := by
  cases part <;> simp [given]

@[simp] theorem lexemes_onlyIf (holds : Bool) (part : Layout) :
    lexemes (onlyIf holds part) = if holds then lexemes part else [] := by
  cases holds <;> simp [onlyIf]

@[simp] theorem joined_nil (separator : Layout) : joined separator [] = [] := rfl

theorem lexemes_joined_cons (separator l : Layout) (ls : List Layout) :
    lexemes (joined separator (l :: ls)) =
      lexemes l ++ ls.flatMap fun m => lexemes separator ++ lexemes m := by
  induction ls generalizing l with
  | nil => simp [joined]
  | cons m ls ih => simp [joined, ih]

@[simp] theorem lexemes_words (texts : List String) : lexemes (words texts) = texts.map .word := by
  cases texts with
  | nil => rfl
  | cons text texts =>
    rw [words, List.map_cons, lexemes_joined_cons]
    induction texts with
    | nil => rfl
    | cons other texts ih => simp_all

@[simp] theorem lexemes_spelled [Spelled α] (value : α) :
    lexemes (spelled value) = (Spelled.head value :: Spelled.tail value).map .word := by
  rw [spelled, lexemes_words]

@[simp] theorem lexemes_setting (key : List String) (value : Layout) :
    lexemes (setting key value) = key.map .word ++ .symbol "=" :: lexemes value := by
  simp [setting]

@[simp] theorem lexemes_collateClause (n : String) :
    lexemes (collateClause n) = [.word "COLLATE", .name n] := rfl

@[simp] theorem lexemes_visibility (visible : Bool) :
    lexemes (visibility visible) = [.word (if visible then "VISIBLE" else "INVISIBLE")] := rfl

end TableDdl.Layout
