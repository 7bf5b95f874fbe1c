/-!
# Splitting and joining

`splitOn` gives the parts of a text between the occurrences of a character, and
`joinWith` puts the character between parts.  Joining undoes splitting for every
text, and splitting undoes joining for parts that do not hold the character.
-/

namespace SqlTemplates.Text

/-- The parts of a text between the occurrences of `sep`. -/
def splitOn (sep : Char) : List Char → List (List Char)
  | [] => [[]]
  | c :: s =>
      if c = sep then [] :: splitOn sep s
      else match splitOn sep s with
        | [] => [[c]]
        | part :: parts => (c :: part) :: parts

/-- The parts with `sep` between each two. -/
def joinWith (sep : Char) : List (List Char) → List Char
  | [] => []
  | [part] => part
  | part :: parts => part ++ sep :: joinWith sep parts

theorem splitOn_ne_nil (sep : Char) (s : List Char) : splitOn sep s ≠ [] := by
  cases s with
  | nil => simp [splitOn]
  | cons c s =>
      rw [splitOn]
      split
      · simp
      · split <;> simp

theorem joinWith_cons {sep : Char} {part : List Char} {parts : List (List Char)}
    (h : parts ≠ []) : joinWith sep (part :: parts) = part ++ sep :: joinWith sep parts := by
  cases parts with
  | nil => exact absurd rfl h
  | cons p ps => rfl

/-- Joining the parts of a text gives the text back. -/
theorem joinWith_splitOn (sep : Char) (s : List Char) : joinWith sep (splitOn sep s) = s := by
  induction s with
  | nil => rfl
  | cons c s ih =>
      rw [splitOn]
      split
      · next h => rw [joinWith_cons (splitOn_ne_nil sep s), ih, h]; rfl
      · cases hs : splitOn sep s with
        | nil => exact absurd hs (splitOn_ne_nil sep s)
        | cons part parts =>
            rw [hs] at ih
            cases parts with
            | nil => exact congrArg (c :: ·) ih
            | cons p ps => exact congrArg (c :: ·) ih

theorem splitOn_of_not_mem {sep : Char} {part : List Char} (h : sep ∉ part) :
    splitOn sep part = [part] := by
  induction part with
  | nil => rfl
  | cons c s ih =>
      simp only [List.mem_cons, not_or] at h
      rw [splitOn, if_neg (Ne.symm h.1), ih h.2]

theorem splitOn_append_cons {sep : Char} {part : List Char} (h : sep ∉ part) (s : List Char) :
    splitOn sep (part ++ sep :: s) = part :: splitOn sep s := by
  induction part with
  | nil => simp [splitOn]
  | cons c part ih =>
      simp only [List.mem_cons, not_or] at h
      rw [List.cons_append, splitOn, if_neg (Ne.symm h.1), ih h.2]

/-- The parts of joined parts are the parts, if none of them holds the character. -/
theorem splitOn_joinWith {sep : Char} {parts : List (List Char)} (hne : parts ≠ [])
    (h : ∀ part ∈ parts, sep ∉ part) : splitOn sep (joinWith sep parts) = parts := by
  induction parts with
  | nil => exact absurd rfl hne
  | cons part parts ih =>
      have hpart := h part (by simp)
      have hparts : ∀ p ∈ parts, sep ∉ p := fun p hp => h p (by simp [hp])
      cases parts with
      | nil => exact splitOn_of_not_mem hpart
      | cons p ps =>
          rw [joinWith_cons (by simp), splitOn_append_cons hpart, ih (by simp) hparts]

/-! ## Joining with a text -/

/-- The characters of joined parts are those of the parts and of what stands between them. -/
theorem mem_intercalate {c : Char} {sep : List Char} {parts : List (List Char)}
    (h : c ∈ sep.intercalate parts) : c ∈ sep ∨ ∃ part ∈ parts, c ∈ part := by
  induction parts with
  | nil => cases h
  | cons part parts ih =>
      cases parts with
      | nil =>
          rw [List.intercalate_singleton] at h
          exact .inr ⟨part, List.mem_singleton.2 rfl, h⟩
      | cons next parts =>
          rw [List.intercalate_cons_cons, List.mem_append, List.mem_append] at h
          rcases h with (h | h) | h
          · exact .inr ⟨part, List.mem_cons_self .., h⟩
          · exact .inl h
          · exact (ih h).imp_right fun ⟨p, hp, hc⟩ => ⟨p, List.mem_cons_of_mem _ hp, hc⟩

theorem joinWith_eq_intercalate (sep : Char) (parts : List (List Char)) :
    joinWith sep parts = [sep].intercalate parts := by
  induction parts with
  | nil => rfl
  | cons part parts ih =>
      cases parts with
      | nil => rw [List.intercalate_singleton, joinWith]
      | cons next parts =>
          rw [joinWith_cons (List.cons_ne_nil next parts), List.intercalate_cons_cons, ih,
            List.append_assoc, List.singleton_append]

end SqlTemplates.Text
