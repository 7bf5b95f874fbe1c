/-!
# Blank characters

Words inside a tag are set apart by blanks, and a trim marker removes the blanks
on its side of a tag.  A character is blank when it has the Unicode property
`White_Space`.  There are twenty-five of them, in ten ranges.

The lemmas say what trimming leaves: the text less a blank piece, with no blank
left at the trimmed end.
-/

namespace SqlTemplates.Text

/-! ## The class -/

/-- The ranges of code points with the property `White_Space`, in order. -/
def blankRanges : List (Nat × Nat) :=
  [(0x0009, 0x000D), (0x0020, 0x0020), (0x0085, 0x0085), (0x00A0, 0x00A0), (0x1680, 0x1680),
   (0x2000, 0x200A), (0x2028, 0x2029), (0x202F, 0x202F), (0x205F, 0x205F), (0x3000, 0x3000)]

/-- The character is white space. -/
def isBlank (c : Char) : Bool :=
  blankRanges.any fun range => range.1 ≤ c.toNat && c.toNat ≤ range.2

/-- The ranges stand in order and do not touch. -/
example : ((blankRanges.zip blankRanges.tail).all fun (range, next) =>
    range.1 ≤ range.2 && range.2 + 1 < next.1) = true := by decide

/-- There are twenty-five blank characters. -/
example : (blankRanges.map fun range => range.2 + 1 - range.1).sum = 25 := by decide

/-- The ASCII class of the core library is a part of this one. -/
theorem isBlank_of_isWhitespace {c : Char} (h : c.isWhitespace = true) : isBlank c = true := by
  simp only [Char.isWhitespace, Bool.or_eq_true, decide_eq_true_eq] at h
  rcases h with ((h | h) | h) | h <;> subst h <;> decide

/-! ## Trimming -/

/-- The text without its leading blanks. -/
def trimStart (s : List Char) : List Char := s.dropWhile isBlank

/-- The text without its trailing blanks. -/
def trimEnd (s : List Char) : List Char := (s.reverse.dropWhile isBlank).reverse

/-- The text without the blanks at either end. -/
def trim (s : List Char) : List Char := trimEnd (trimStart s)

@[simp] theorem trimStart_nil : trimStart [] = [] := rfl

theorem trimStart_cons (c : Char) (s : List Char) :
    trimStart (c :: s) = if isBlank c then trimStart s else c :: s := by
  rw [trimStart, List.dropWhile_cons]
  rfl

/-- Trimming the start removes a run of blanks. -/
theorem takeWhile_append_trimStart (s : List Char) :
    s.takeWhile isBlank ++ trimStart s = s :=
  List.takeWhile_append_dropWhile

theorem trimStart_suffix (s : List Char) : trimStart s <:+ s := List.dropWhile_suffix isBlank

theorem length_trimStart_le (s : List Char) : (trimStart s).length ≤ s.length :=
  (trimStart_suffix s).length_le

/-- No blank is left at the start. -/
theorem isBlank_of_trimStart_eq_cons {s r : List Char} {c : Char} (h : trimStart s = c :: r) :
    isBlank c = false := by
  induction s with
  | nil => cases h
  | cons d s ih =>
      rw [trimStart_cons] at h
      split at h
      · exact ih h
      · next hd => cases h; simpa using hd

/-- Trimming the end removes a run of blanks. -/
theorem exists_trimEnd_append (s : List Char) :
    ∃ blanks : List Char, blanks.all isBlank = true ∧ trimEnd s ++ blanks = s := by
  refine ⟨(s.reverse.takeWhile isBlank).reverse, ?_, ?_⟩
  · rw [List.all_reverse]
    exact List.all_takeWhile
  · rw [trimEnd, ← List.reverse_append, List.takeWhile_append_dropWhile, List.reverse_reverse]

/-- The text has no character but blanks. -/
def isAllBlank (s : List Char) : Bool := s.all isBlank

end SqlTemplates.Text
