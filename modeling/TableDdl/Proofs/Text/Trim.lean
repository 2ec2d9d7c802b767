import TableDdl.Text.Word

/-!
# Trimmed ends

What is left of a text without the blanks around it begins and ends with characters that are no
blanks, and a text that does so is left as it is.
-/
namespace TableDdl.Text

variable {cs front : List Char}

/-- No blank is the first character of the text. -/
def StartsSolid (cs : List Char) : Prop := ∀ d ∈ cs.head?, isBlank d = false

/-- No blank is the last character of the text. -/
def EndsSolid (cs : List Char) : Prop := ∀ d ∈ cs.getLast?, isBlank d = false

theorem EndsSolid.of_suffix {b : List Char} (h : EndsSolid cs) (suffix : b <:+ cs) :
    EndsSolid b := by
  obtain ⟨front, rfl⟩ := suffix
  exact fun d hd => h d (by rw [List.getLast?_append, Option.mem_def.1 hd]; rfl)

theorem StartsSolid.of_start {b : List Char} (h : StartsSolid cs) (start : b <+: cs) :
    StartsSolid b := by
  obtain ⟨more, rfl⟩ := start
  exact fun d hd => h d (by rw [List.head?_append, Option.mem_def.1 hd]; rfl)

theorem startsSolid_trimLeft (cs : List Char) : StartsSolid (trimLeft cs) := by
  intro d hd
  have first := List.head?_dropWhile_not isBlank cs
  rw [trimLeft, Option.mem_def] at hd
  rwa [hd] at first

theorem trimLeft_eq_self (h : StartsSolid cs) : trimLeft cs = cs := by
  cases cs with
  | nil => rfl
  | cons c cs => simp [trimLeft, h c rfl]

theorem endsSolid_trimRight (cs : List Char) : EndsSolid (trimRight cs) := by
  intro d hd
  rw [trimRight, List.getLast?_reverse] at hd
  exact startsSolid_trimLeft _ d hd

theorem trimRight_eq_self (h : EndsSolid cs) : trimRight cs = cs := by
  have reversed : StartsSolid cs.reverse := fun d hd => h d (by rwa [List.head?_reverse] at hd)
  rw [trimRight, trimLeft_eq_self reversed, List.reverse_reverse]

theorem startsSolid_trim (cs : List Char) : StartsSolid (trim cs) := by
  obtain ⟨after, whole, -⟩ := trimRight_append (trimLeft cs)
  exact (startsSolid_trimLeft cs).of_start ⟨after, whole⟩

theorem endsSolid_trim (cs : List Char) : EndsSolid (trim cs) := endsSolid_trimRight _

theorem trim_trim (cs : List Char) : trim (trim cs) = trim cs := by
  rw [trim, trimLeft_eq_self (startsSolid_trim cs), trimRight_eq_self (endsSolid_trim cs)]

/-- What is left after trimming lies within the text. -/
theorem trim_within (cs : List Char) : trim cs <:+: cs := by
  obtain ⟨before, after, whole, -⟩ := trim_append cs
  exact ⟨before, after, by rw [List.append_assoc, whole]⟩

theorem trimLeft_blank_append (blank : ∀ d ∈ front, isBlank d = true) :
    trimLeft (front ++ cs) = trimLeft cs :=
  List.dropWhile_append_of_pos blank

theorem trimRight_append_blank {after : List Char} (blank : ∀ d ∈ after, isBlank d = true) :
    trimRight (cs ++ after) = trimRight cs := by
  have reversed : ∀ d ∈ after.reverse, isBlank d = true := by simpa using blank
  rw [trimRight, List.reverse_append, trimLeft_blank_append reversed, trimRight]

/-- Blanks around a text are trimmed with those at its ends. -/
theorem trim_blank_append {after : List Char} (blankBefore : ∀ d ∈ front, isBlank d = true)
    (blankAfter : ∀ d ∈ after, isBlank d = true) : trim (front ++ (cs ++ after)) = trim cs := by
  obtain ⟨before, behind, whole, blankFront, blankBehind⟩ := trim_append cs
  rw [List.all_eq_true] at blankFront blankBehind
  have blanks : ∀ d ∈ behind ++ after, isBlank d = true := by
    intro d hd
    rcases List.mem_append.1 hd with hd | hd
    · exact blankBehind d hd
    · exact blankAfter d hd
  have parts : cs ++ after = before ++ (trim cs ++ (behind ++ after)) := by
    rw [← List.append_assoc (trim cs), ← List.append_assoc before, whole]
  rw [trim, trimLeft_blank_append blankBefore, parts, trimLeft_blank_append blankFront]
  have starts := startsSolid_trim cs
  have ends := endsSolid_trim cs
  revert starts ends
  cases trim cs with
  | nil =>
    intro _ _
    rw [List.nil_append, ← List.append_nil (behind ++ after), trimLeft_blank_append blanks]
    rfl
  | cons c m =>
    intro starts ends
    have solid : StartsSolid (c :: m ++ (behind ++ after)) := starts
    rw [trimLeft_eq_self solid, trimRight_append_blank blanks, trimRight_eq_self ends]

end TableDdl.Text
