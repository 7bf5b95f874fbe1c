import Mathlib
import SqlTemplates.Proofs.Extent

/-!
# The pieces of a text

Scanning cuts a text into pieces, one for each tag.  A piece is the text that is left before
the tag, what the tag drops of it, the tag as it is written, and what it drops of the text
after it (`Tag.Place`).  `Tag.Passed` says that some tags have been read, each the first one of
the text after the one before it, and what text is left.

The pieces and the text that is left are the whole text (`Tag.Passed.text_eq`), so nothing is
lost and nothing is read twice, and each piece holds a delimiter, so the scan ends
(`Tag.Passed.length_le`).  `Tag.scan_pieces` says this of the scan of any text.
-/

namespace SqlTemplates

namespace Tag

/-! ## One tag after the other -/

/-- A tag in its place. -/
structure Place where
  tag : Tag
  /-- What the tag drops of the text before it. -/
  left : List Char
  /-- What the tag drops of the text after it. -/
  right : List Char

/-- The piece of text that a tag ends, with what it drops. -/
def Place.text (place : Place) : List Char :=
  place.tag.before ++ place.left ++ place.tag.raw ++ place.right

/-- The pieces of text of some tags in a row. -/
def textOf (places : List Place) : List Char := places.flatMap Place.text

@[simp] theorem textOf_nil : textOf [] = [] := rfl

@[simp] theorem textOf_cons (place : Place) (places : List Place) :
    textOf (place :: places) = place.text ++ textOf places := rfl

/-- These tags are the first ones of a text, each in its place, and the rest of the text is
left. -/
inductive Passed : List Char → List Place → List Char → Prop
  | nil {s : List Char} : Passed s [] s
  | cons {s rest : List Char} {place : Place} {places : List Place} :
      first? s = .ok (some place.tag) → place.tag.Stands place.left place.right s →
      Passed place.tag.after places rest → Passed s (place :: places) rest

namespace Passed

variable {s rest : List Char} {places : List Place}

/-- The pieces of the tags and the text that is left are the whole text. -/
theorem text_eq (h : Passed s places rest) : s = textOf places ++ rest := by
  induction h with
  | nil => rfl
  | cons _ hstands _ ih =>
      rw [textOf_cons, List.append_assoc, ← ih]
      exact hstands.text

/-- Every tag takes at least its delimiter. -/
theorem length_le (h : Passed s places rest) : 2 * places.length + rest.length ≤ s.length := by
  induction h with
  | nil => simp
  | @cons s rest place places _ hstands _ ih =>
      have hraw := hstands.two_le_length_raw
      have htext := congrArg List.length hstands.text
      simp only [List.length_append, List.length_cons] at htext ⊢
      omega

/-- The scan of a text has the tags that were passed and those of the text that is left. -/
theorem scan_eq (h : Passed s places rest) :
    scan s = (places.map Place.tag ++ (scan rest).1, (scan rest).2) := by
  induction h with
  | nil => rfl
  | cons hfirst _ _ ih => rw [scan_of_some hfirst, ih, List.map_cons, List.cons_append]

end Passed

/-! ## All tags -/

/-- A text can be read tag by tag to a place where no other tag can be read. -/
theorem exists_passed (s : List Char) :
    ∃ places rest, Passed s places rest ∧ ∀ tag, first? rest ≠ .ok (some tag) := by
  induction s using scan.induct with
  | case1 s e hf => exact ⟨[], s, .nil, fun tag => by rw [hf]; exact nofun⟩
  | case2 s hf => exact ⟨[], s, .nil, fun tag => by rw [hf]; exact nofun⟩
  | case3 s tag hf _ _ _ ih =>
      obtain ⟨places, rest, hpassed, hend⟩ := ih
      obtain ⟨left, right, hstands, -⟩ := exists_stands hf
      exact ⟨⟨tag, left, right⟩ :: places, rest, .cons hf hstands hpassed, hend⟩

/-- A text without a first tag has no tags. -/
theorem scan_eq_nil {s : List Char} (h : ∀ tag, first? s ≠ .ok (some tag)) :
    scan s = ([], (first? s).map fun _ => s) := by
  cases hf : first? s with
  | error e => rw [scan_of_error hf]; rfl
  | ok found =>
      cases found with
      | none => rw [scan_of_none hf]; rfl
      | some tag => exact absurd hf (h tag)

/-- The first tag of a text stands in it with all of the text around it, and the text after it
is shorter.  So reading one tag after the other ends for every text, and the pieces of all
tags and the text after the last of them are the text again. -/
theorem scan_pieces (s : List Char) :
    (∀ tag, first? s = .ok (some tag) →
        ∃ left right, tag.Stands left right s ∧ tag.after.length < s.length) ∧
      ∃ places rest, Passed s places rest ∧ (∀ tag, first? rest ≠ .ok (some tag)) ∧
        scan s = (places.map Place.tag, (first? rest).map fun _ => rest) ∧
        2 * places.length + rest.length ≤ s.length ∧ textOf places ++ rest = s := by
  refine ⟨fun tag hf => ?_, ?_⟩
  · obtain ⟨left, right, hstands, -⟩ := exists_stands hf
    exact ⟨left, right, hstands, length_after_lt hf⟩
  · obtain ⟨places, rest, hpassed, hend⟩ := exists_passed s
    refine ⟨places, rest, hpassed, hend, ?_, hpassed.length_le, hpassed.text_eq.symm⟩
    rw [hpassed.scan_eq, scan_eq_nil hend, List.append_nil]

/-- A tag with trim marks takes the blanks on both sides of it. -/
theorem scan_pieces_trimmed :
    ∃ left right,
      (Tag.mk .expression ['a'] ['x'] ['b'] "\x7b\x7b~x~\x7d\x7d".toList).Stands left right
          "a \x7b\x7b~x~\x7d\x7d b".toList ∧
        ['b'].length < "a \x7b\x7b~x~\x7d\x7d b".toList.length := by
  have hfirst : first? "a \x7b\x7b~x~\x7d\x7d b".toList =
      .ok (some ⟨.expression, ['a'], ['x'], ['b'], "\x7b\x7b~x~\x7d\x7d".toList⟩) := by cbv
  exact (scan_pieces _).1 _ hfirst

end Tag

end SqlTemplates
