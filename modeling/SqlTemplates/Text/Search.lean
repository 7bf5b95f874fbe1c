/-!
# Searching a text

A tag ends at the first occurrence of its closing delimiter, so the one search
the scanner needs is `cut?`: the text before the first occurrence of a mark and
the text after it.  `cut?_eq_some` says that nothing is lost by a cut, and
`length_lt_of_cut?` that the part after a mark is shorter than the text, which is
what ends every loop over tags.

Errors quote the end of a text, `lastChars`.
-/

namespace SqlTemplates.Text

/-! ## Cutting at a mark -/

/-- What follows `mark` in a text that starts with it. -/
def strip? : List Char → List Char → Option (List Char)
  | [], s => some s
  | _ :: _, [] => none
  | m :: mark, c :: s => if m = c then strip? mark s else none

/-- The text before the first occurrence of `mark` and the text after it. -/
def cut? (mark : List Char) : List Char → Option (List Char × List Char)
  | [] => (strip? mark []).map fun after => ([], after)
  | c :: s =>
      match strip? mark (c :: s) with
      | some after => some ([], after)
      | none => (cut? mark s).map fun (before, after) => (c :: before, after)

theorem strip?_eq_some_iff {mark s after : List Char} :
    strip? mark s = some after ↔ s = mark ++ after := by
  induction mark generalizing s with
  | nil => simp [strip?]
  | cons m mark ih =>
      cases s with
      | nil => simp [strip?]
      | cons c s =>
          by_cases h : m = c
          · simp [strip?, h, ih]
          · simp [strip?, h, Ne.symm h]

/-- A cut loses nothing: the text is the part before, the mark and
the part after. -/
theorem eq_of_cut? {mark s before after : List Char} (h : cut? mark s = some (before, after)) :
    s = before ++ mark ++ after := by
  induction s generalizing before with
  | nil =>
      obtain ⟨a, ha, he⟩ := Option.map_eq_some_iff.1 h
      cases he
      simpa using strip?_eq_some_iff.1 ha
  | cons c s ih =>
      rw [cut?] at h
      split at h
      · next a ha =>
          cases h
          simpa using strip?_eq_some_iff.1 ha
      · obtain ⟨⟨b, a⟩, hc, he⟩ := Option.map_eq_some_iff.1 h
        cases he
        simp [ih hc]

theorem suffix_of_cut? {mark s before after : List Char}
    (h : cut? mark s = some (before, after)) : after <:+ s := by
  rw [eq_of_cut? h]
  exact List.suffix_append (before ++ mark) after

/-- What follows a non-empty mark is shorter than the text. -/
theorem length_lt_of_cut? {mark s before after : List Char}
    (h : cut? mark s = some (before, after)) (hm : mark ≠ []) : after.length < s.length := by
  have hpos : 0 < mark.length := List.length_pos_iff.2 hm
  rw [eq_of_cut? h]
  simp
  omega

/-! ## The end of a text -/

/-- At most the last `n` characters of a text. -/
def lastChars (n : Nat) (s : List Char) : List Char := s.drop (s.length - n)

/-- The last characters are a part of the text, at its end. -/
theorem lastChars_suffix (n : Nat) (s : List Char) : lastChars n s <:+ s :=
  List.drop_suffix _ _

theorem length_lastChars (n : Nat) (s : List Char) : (lastChars n s).length = min n s.length := by
  simp [lastChars]
  omega

end SqlTemplates.Text
