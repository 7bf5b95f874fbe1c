import SqlTemplates.Proofs.Extent

/-!
# Texts put together

The tags of a text stay where they are when another text follows.  A tag that was found is
found again, with more text after it (`Tag.first?_append`), and the scan goes on in what was
left over (`Tag.scan_append`).

Two things could go wrong at the seam.  A trim mark at the end of the last tag reaches
into the second text if that starts with a blank, which `Tag.Seamless` excludes.  And
an opening delimiter may stand across the seam or behind a backslash of the first text:
`Tag.EndsPlain` says that it does not.
-/

namespace SqlTemplates

namespace Tag

/-! ## Tags in a longer text -/

/-- A tag at the end of the first text does not trim the second one: there is no trim
mark, or the second text starts with something other than a blank. -/
def Seamless (s t : List Char) : Prop := '~' ∉ s ∨ Text.StartsSolid t

theorem Seamless.mono {s s' t : List Char} (h : Seamless s t) (hsub : s' ⊆ s) : Seamless s' t :=
  h.imp_left fun hm hmem => hm (hsub hmem)

/-- The tag with more text after it. -/
def extend (tag : Tag) (t : List Char) : Tag := { tag with after := tag.after ++ t }

/-- More text after a text that a tag is read from stands after the tag. -/
theorem followedBy_append {tag : Tag} {s t : List Char} (h : Seamless tag.raw t) :
    tag.followedBy (s ++ t) = (tag.followedBy s).extend t := by
  rw [followedBy, followedBy, extend]
  split
  · next htrims =>
      have hmem : '~' ∈ tag.raw := by
        rcases htrims with hsuffix | hsuffix <;> exact hsuffix.subset (List.mem_cons_self ..)
      simp only [Text.trimStart_append (h.resolve_left fun hno => hno hmem)]
  · rfl

/-- The first tag of a text is still its first tag when another text follows. -/
theorem first?_append {s t : List Char} {tag : Tag} (h : first? s = .ok (some tag))
    (hseam : Seamless s t) : first? (s ++ t) = .ok (some (tag.extend t)) := by
  obtain ⟨left, right, hs, hreach⟩ := exists_stands h
  have hsplit : s = tag.before ++ left ++ tag.raw ++ (right ++ tag.after) := by
    rw [← List.append_assoc]
    exact hs.text
  have htag : tag.followedBy (right ++ tag.after) = tag := hs.followedBy hs.startsSolid_after
  have hraw : Seamless tag.raw t := by
    refine hseam.mono fun c hc => ?_
    rw [hsplit]
    simp [hc]
  have hlonger := hreach (right ++ tag.after ++ t)
  rwa [← List.append_assoc, ← hsplit, followedBy_append hraw, htag] at hlonger

/-! ## What a scan leaves over -/

theorem cut?_of_first?_none {s : List Char} (h : first? s = .ok none) :
    Text.cut? openMark s = none := by
  rw [first?] at h
  split at h
  · assumption
  · next lead rest hc =>
      cases ht : ofCut lead rest <;> rw [ht] at h <;> cases h

/-- The text after the last tag ends the text and holds no opening delimiter. -/
theorem rest_of_scan {s rest : List Char} (h : (scan s).2 = .ok rest) :
    rest <:+ s ∧ Text.cut? openMark rest = none := by
  induction s using scan.induct with
  | case1 s e hf => rw [scan_of_error hf] at h; cases h
  | case2 s hf =>
      rw [scan_of_none hf] at h
      cases h
      exact ⟨List.suffix_rfl, cut?_of_first?_none hf⟩
  | case3 s tag hf _ _ _ ih =>
      rw [scan_of_some hf] at h
      obtain ⟨hsuffix, hnone⟩ := ih h
      exact ⟨hsuffix.trans (after_suffix hf), hnone⟩

/-! ## Scanning goes on at the seam -/

/-- The tags of a text are still its tags when another text follows, and the scan goes
on in what was left over. -/
theorem scan_append {s t rest : List Char} (h : (scan s).2 = .ok rest) (hseam : Seamless s t) :
    scan (s ++ t) =
      ((scan s).1.map (extend · t) ++ (scan (rest ++ t)).1, (scan (rest ++ t)).2) := by
  induction s using scan.induct with
  | case1 s e hf => rw [scan_of_error hf] at h; cases h
  | case2 s hf =>
      rw [scan_of_none hf] at h ⊢
      cases h
      rfl
  | case3 s tag hf _ _ _ ih =>
      rw [scan_of_some hf] at h ⊢
      have hrest : Seamless tag.after t := hseam.mono (after_suffix hf).subset
      have hafter : (tag.extend t).after = tag.after ++ t := rfl
      rw [scan_of_some (first?_append hf hseam), hafter, ih h hrest]
      rfl

/-! ## Delimiters at the seam -/

/-- The text ends neither in a brace, which could become a part of a delimiter, nor in a
backslash, which would escape one. -/
def EndsPlain (s : List Char) : Prop := ∀ c ∈ s.getLast?, c ≠ '{' ∧ c ≠ '\\'

theorem EndsPlain.of_suffix {s rest : List Char} (h : EndsPlain s) (hsuffix : rest <:+ s) :
    EndsPlain rest := fun c hc => h c (Text.mem_getLast?_of_suffix hsuffix hc)

theorem EndsPlain.of_getLast? {s : List Char} {c : Char} (h : s.getLast? = some c)
    (hplain : c ≠ '{' ∧ c ≠ '\\') : EndsPlain s := by
  intro d hd
  rw [h] at hd
  cases hd
  exact hplain

/-- A text that holds no delimiter and does not end in a brace does not change where the
next one is. -/
theorem cut?_openMark_append {s : List Char} (h : Text.cut? openMark s = none)
    (hend : ∀ c ∈ s.getLast?, c ≠ '{') (t : List Char) :
    Text.cut? openMark (s ++ t) =
      (Text.cut? openMark t).map fun (lead, rest) => (s ++ lead, rest) :=
  Text.cut?_append_of_none h (fun c hc => by simpa [openMark] using hend c hc) t

namespace Lead

/-- A text that ends plainly has no backslash to obey. -/
theorem of_endsPlain {lead : List Char} (h : EndsPlain lead) : of lead = .plain lead :=
  of_no_slash fun hlast => (h '\\' hlast).2 rfl

end Lead

end Tag

end SqlTemplates
