import TableDdl.Keyword.Table

/-!
# Words up to letter case

Whether a text is a plain word, a keyword or a reserved word depends on it only up to the case of
its letters.
-/
namespace TableDdl.Text

variable {a b : String}

theorem isLower_iff {c : Char} : c.isLower = true ↔ 97 ≤ c.toNat ∧ c.toNat ≤ 122 := by
  show (decide ('a'.val ≤ c.val) && decide (c.val ≤ 'z'.val)) = true ↔ _
  simp [UInt32.le_iff_toNat_le, ← Char.toNat_val]

theorem isUpper_iff {c : Char} : c.isUpper = true ↔ 65 ≤ c.toNat ∧ c.toNat ≤ 90 := by
  unfold Char.isUpper
  simp [UInt32.le_iff_toNat_le, ← Char.toNat_val]

theorem isAlpha_iff {c : Char} : c.isAlpha = true ↔ c.isUpper = true ∨ c.isLower = true :=
  Bool.or_eq_true_iff

theorem isAlpha_eq_isUpper {c : Char} (lower : c.isLower = false) : c.isAlpha = c.isUpper := by
  rw [Bool.eq_iff_iff, isAlpha_iff, lower]
  simp

/-- A small letter becomes a capital one, and every other character stays as it is. -/
theorem toUpper_cases (c : Char) :
    c.isLower = true ∧ c.toUpper.isUpper = true ∨ c.isLower = false ∧ c.toUpper = c := by
  by_cases small : 'a'.val ≤ c.val ∧ c.val ≤ 'z'.val
  · have bounds : 97 ≤ c.toNat ∧ c.toNat ≤ 122 := by
      simpa [UInt32.le_iff_toNat_le, ← Char.toNat_val] using small
    have capital : c.toUpper = _ := dif_pos small
    refine .inl ⟨isLower_iff.2 bounds, isUpper_iff.2 ?_⟩
    rw [capital]
    simp [← Char.toNat_val, UInt32.toNat_add] at bounds ⊢
    omega
  · have other : ¬ c.isLower = true := by
      simpa [isLower_iff, UInt32.le_iff_toNat_le, ← Char.toNat_val] using small
    exact .inr ⟨Bool.eq_false_iff.2 other, dif_neg small⟩

/-- What all letters have in common does not depend on the case of a character. -/
theorem toUpper_congr {α : Sort _} {p : Char → α} {x : α}
    (letters : ∀ c, c.isAlpha = true → p c = x)
    (c : Char) : p c.toUpper = p c := by
  rcases toUpper_cases c with ⟨lower, upper⟩ | ⟨-, same⟩
  · rw [letters c (isAlpha_iff.2 (.inr lower)), letters c.toUpper (isAlpha_iff.2 (.inl upper))]
  · rw [same]

theorem isPlainStart_toUpper (c : Char) : isPlainStart c.toUpper = isPlainStart c :=
  toUpper_congr (x := true) (fun c alpha => by simp [isPlainStart, alpha]) c

theorem isPlainPart_toUpper (c : Char) : isPlainPart c.toUpper = isPlainPart c :=
  toUpper_congr (x := true) (fun c alpha => by simp [isPlainPart, Char.isAlphanum, alpha]) c

theorem isPlainWord_upper (text : String) : isPlainWord (upper text) = isPlainWord text := by
  have parts (cs : List Char) : (cs.map Char.toUpper).all isPlainPart = cs.all isPlainPart := by
    rw [List.all_map]
    congr 1
    funext c
    exact isPlainPart_toUpper c
  simp only [isPlainWord, upper, String.toList_ofList]
  cases text.toList with
  | nil => rfl
  | cons c cs => simp only [List.map_cons, isPlainStart_toUpper, parts]

theorem upper_eq_of_sameWord (h : sameWord a b = true) : upper a = upper b := by
  simpa [sameWord] using h

theorem sameWord_congr (h : sameWord a b = true) (c : String) : sameWord a c = sameWord b c := by
  rw [sameWord, upper_eq_of_sameWord h, sameWord]

theorem isPlainWord_congr (h : sameWord a b = true) : isPlainWord a = isPlainWord b := by
  rw [← isPlainWord_upper a, upper_eq_of_sameWord h, isPlainWord_upper]

theorem isKeyword_congr (h : sameWord a b = true) (keywords : Keywords) :
    keywords.isKeyword a = keywords.isKeyword b := by
  simp only [Keywords.isKeyword, upper_eq_of_sameWord h]

theorem isReserved_congr (h : sameWord a b = true) (keywords : Keywords) :
    keywords.isReserved a = keywords.isReserved b := by
  simp only [Keywords.isReserved, upper_eq_of_sameWord h]

end TableDdl.Text
