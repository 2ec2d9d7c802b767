import TableDdl.Text.Letter

/-!
# Words

Words of the language are compared without regard to the case of ASCII letters; other letters have
no case here. A plain word is a letter or underscore followed by letters, digits and underscores,
all of them ASCII: a valid keyword, and a valid name without quotes. Blanks, which are the
characters with the Unicode property White_Space, may be removed from both ends of a text.
-/
namespace TableDdl.Text

def upper (text : String) : String := String.ofList (text.toList.map Char.toUpper)

/-- The two texts are equal up to the case of ASCII letters. -/
def sameWord (a b : String) : Bool := upper a == upper b

theorem sameWord_iff {a b : String} :
    sameWord a b = true ↔ a.toList.map Char.toUpper = b.toList.map Char.toUpper := by
  simp [sameWord, upper, String.ofList_inj]

theorem sameWord_refl (a : String) : sameWord a a = true := by simp [sameWord]

def isPlainStart (c : Char) : Bool := c.isAlpha || c == '_'

def isPlainPart (c : Char) : Bool := c.isAlphanum || c == '_'

def isPlainWord (text : String) : Bool :=
  match text.toList with
  | [] => false
  | c :: cs => isPlainStart c && cs.all isPlainPart

theorem isPlainWord_iff {text : String} :
    isPlainWord text = true ↔
      ∃ c cs, text.toList = c :: cs ∧ isPlainStart c = true ∧ cs.all isPlainPart = true := by
  unfold isPlainWord
  split
  · simp_all
  · rename_i c cs h
    simp only [h, Bool.and_eq_true]
    constructor
    · rintro ⟨first, others⟩
      exact ⟨c, cs, rfl, first, others⟩
    · rintro ⟨_, _, same, first, others⟩
      obtain ⟨rfl, rfl⟩ := List.cons.inj same
      exact ⟨first, others⟩

def blankRanges : Ranges where
  bounds := [
    (0x0009, 0x000D), (0x0020, 0x0020), (0x0085, 0x0085), (0x00A0, 0x00A0), (0x1680, 0x1680),
    (0x2000, 0x200A), (0x2028, 0x2029), (0x202F, 0x202F), (0x205F, 0x205F), (0x3000, 0x3000)]

def isBlank (c : Char) : Bool := blankRanges.contains c

def trimLeft (cs : List Char) : List Char := cs.dropWhile isBlank

def trimRight (cs : List Char) : List Char := (trimLeft cs.reverse).reverse

def trim (cs : List Char) : List Char := trimRight (trimLeft cs)

theorem trimLeft_append (cs : List Char) :
    ∃ before, before ++ trimLeft cs = cs ∧ before.all isBlank = true :=
  ⟨cs.takeWhile isBlank, List.takeWhile_append_dropWhile, List.all_takeWhile⟩

theorem trimRight_append (cs : List Char) :
    ∃ after, trimRight cs ++ after = cs ∧ after.all isBlank = true := by
  obtain ⟨before, whole, blank⟩ := trimLeft_append cs.reverse
  refine ⟨before.reverse, ?_, by simpa using blank⟩
  rw [trimRight, ← List.reverse_append, whole, List.reverse_reverse]

/-- Trimming takes away blanks only. -/
theorem trim_append (cs : List Char) :
    ∃ before after, before ++ (trim cs ++ after) = cs
      ∧ before.all isBlank = true ∧ after.all isBlank = true := by
  obtain ⟨before, front, blankBefore⟩ := trimLeft_append cs
  obtain ⟨after, back, blankAfter⟩ := trimRight_append (trimLeft cs)
  exact ⟨before, after, by rw [trim, back, front], blankBefore, blankAfter⟩

end TableDdl.Text
