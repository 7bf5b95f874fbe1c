import SqlTemplates.Text.Split

/-!
# Names and dot paths

Three classes of names occur in templates.

* An *identifier* names a value: `[A-Za-z_][A-Za-z0-9_]*`.
* A *segment* is a part of a dot path: `[A-Za-z0-9_-]+`.
* A *dot path* names a stored template: one or more segments joined by dots.

All three are ASCII.  `isDotPath_iff` says that the dot paths are exactly the joins
of segments.  The segments can be read off again (`joinDots_injective`), so different
rows of segments have different dot paths.
-/

namespace SqlTemplates.Name

/-! ## Classes -/

/-- A letter, a digit or an underscore. -/
def isWordChar (c : Char) : Bool := c.isAlphanum || c = '_'

/-- The text is an identifier. -/
def isIdentifier : List Char → Bool
  | [] => false
  | c :: s => (c.isAlpha || c = '_') && s.all isWordChar

/-- A character of a segment. -/
def isSegmentChar (c : Char) : Bool := isWordChar c || c = '-'

/-- The text is a segment. -/
def isSegment (s : List Char) : Bool := !s.isEmpty && s.all isSegmentChar

/-! ## Dot paths -/

/-- The parts with a dot between each two. -/
def joinDots (parts : List (List Char)) : List Char := Text.joinWith '.' parts

/-- The text is a dot path. -/
def isDotPath (s : List Char) : Bool := (Text.splitOn '.' s).all isSegment

/-- A segment holds no dot. -/
theorem not_mem_of_isSegment {s : List Char} (h : isSegment s = true) : '.' ∉ s := by
  intro hm
  simp only [isSegment, Bool.and_eq_true, List.all_eq_true] at h
  exact absurd (h.2 '.' hm) (by decide)

theorem splitOn_joinDots {parts : List (List Char)} (hne : parts ≠ [])
    (h : parts.all isSegment = true) : Text.splitOn '.' (joinDots parts) = parts :=
  Text.splitOn_joinWith hne fun part hp => not_mem_of_isSegment (List.all_eq_true.1 h part hp)

/-- Joined segments are a dot path. -/
theorem isDotPath_joinDots {parts : List (List Char)} (hne : parts ≠ [])
    (h : parts.all isSegment = true) : isDotPath (joinDots parts) = true := by
  rw [isDotPath, splitOn_joinDots hne h]
  exact h

/-- The dot paths are the joins of one or more segments. -/
theorem isDotPath_iff {s : List Char} :
    isDotPath s = true ↔
      ∃ parts : List (List Char),
        parts ≠ [] ∧ parts.all isSegment = true ∧ s = joinDots parts := by
  constructor
  · intro h
    exact ⟨Text.splitOn '.' s, Text.splitOn_ne_nil '.' s, h, (Text.joinWith_splitOn '.' s).symm⟩
  · rintro ⟨parts, hne, h, rfl⟩
    exact isDotPath_joinDots hne h

/-- Different rows of segments have different dot paths. -/
theorem joinDots_injective {xs ys : List (List Char)} (hx : xs.all isSegment = true)
    (hy : ys.all isSegment = true) (h : joinDots xs = joinDots ys) (hne : xs ≠ [])
    (hne' : ys ≠ []) : xs = ys := by
  rw [← splitOn_joinDots hne hx, h, splitOn_joinDots hne' hy]

end SqlTemplates.Name
