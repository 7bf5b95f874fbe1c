import SqlTemplates.Template.Tag

/-!
# Marks and blanks in a longer text

What a search finds does not depend on what follows.  A mark that was found is found at the
same place when the text goes on (`Text.cut?_append_of_some`), or when another text stands
after it (`Text.cut?_replace`), since it is the first one (`Text.firstAt_of_cut?`).  A mark
is not found across the end of a text that ends in another character
(`Text.cut?_append_of_none`).

Trimming stops at what is not a blank: `Text.StartsSolid` and `Text.EndsSolid` say that a
text has no blank at its start or at its end.
-/

namespace SqlTemplates

/-! ## Searching in a longer text -/

namespace Text

theorem strip?_append_of_some {mark s after : List Char} (h : strip? mark s = some after)
    (t : List Char) : strip? mark (s ++ t) = some (after ++ t) := by
  rw [strip?_eq_some_iff] at h ⊢
  rw [h, List.append_assoc]

/-- A text that is long enough and does not start with the mark does not start with it
when it goes on. -/
theorem strip?_append_of_none {mark s : List Char} (h : strip? mark s = none)
    (hlength : mark.length ≤ s.length) (t : List Char) : strip? mark (s ++ t) = none := by
  induction mark generalizing s with
  | nil => cases h
  | cons m mark ih =>
      cases s with
      | nil => exact absurd hlength (Nat.not_succ_le_zero _)
      | cons c s =>
          rw [strip?] at h
          rw [List.cons_append, strip?]
          split
          · next hmc =>
              rw [if_pos hmc] at h
              exact ih h (Nat.le_of_succ_le_succ hlength)
          · rfl

theorem cut?_cons_of_some {mark s after : List Char} {c : Char}
    (h : strip? mark (c :: s) = some after) : cut? mark (c :: s) = some ([], after) := by
  rw [cut?, h]

theorem cut?_cons_of_none {mark s : List Char} {c : Char} (h : strip? mark (c :: s) = none) :
    cut? mark (c :: s) = (cut? mark s).map fun (before, after) => (c :: before, after) := by
  rw [cut?, h]

theorem length_eq_of_cut? {mark s before after : List Char}
    (h : cut? mark s = some (before, after)) :
    s.length = before.length + mark.length + after.length := by
  rw [eq_of_cut? h, List.length_append, List.length_append]

/-- A mark that was found is found at the same place when the text goes on. -/
theorem cut?_append_of_some {mark s before after : List Char}
    (h : cut? mark s = some (before, after)) (t : List Char) :
    cut? mark (s ++ t) = some (before, after ++ t) := by
  induction s generalizing before with
  | nil =>
      obtain ⟨rest, hrest, he⟩ := Option.map_eq_some_iff.1 h
      cases he
      obtain ⟨rfl, rfl⟩ : mark = [] ∧ after = [] := by
        simpa using (strip?_eq_some_iff.1 hrest).symm
      cases t <;> rfl
  | cons c s ih =>
      cases hs : strip? mark (c :: s) with
      | some rest =>
          rw [cut?_cons_of_some hs] at h
          cases h
          exact cut?_cons_of_some (strip?_append_of_some hs t)
      | none =>
          rw [cut?_cons_of_none hs] at h
          obtain ⟨⟨b, a⟩, hc, he⟩ := Option.map_eq_some_iff.1 h
          cases he
          have hlength : mark.length ≤ (c :: s).length := by
            have := length_eq_of_cut? hc
            rw [List.length_cons]
            omega
          have hskip : strip? mark (c :: (s ++ t)) = none :=
            strip?_append_of_none hs hlength t
          rw [List.cons_append, cut?_cons_of_none hskip, ih hc]
          rfl

/-- A text that holds the mark can be cut at it. -/
theorem cut?_ne_none (mark before after : List Char) :
    cut? mark (before ++ mark ++ after) ≠ none := by
  induction before with
  | nil =>
      have hs : strip? mark (mark ++ after) = some after := strip?_eq_some_iff.2 rfl
      rw [List.nil_append]
      cases hm : mark ++ after with
      | nil => rw [hm] at hs; simp [cut?, hs]
      | cons c s => rw [hm] at hs; simp [cut?, hs]
  | cons c before ih =>
      simp only [List.cons_append]
      cases hs : strip? mark (c :: (before ++ mark ++ after)) with
      | some rest => rw [cut?_cons_of_some hs]; simp
      | none => rw [cut?_cons_of_none hs]; simpa using ih

theorem cut?_eq_none_iff {mark s : List Char} : cut? mark s = none ↔ ¬ mark <:+: s := by
  constructor
  · rintro h ⟨before, after, rfl⟩
    exact cut?_ne_none mark before after h
  · intro h
    cases hc : cut? mark s with
    | none => rfl
    | some found => exact absurd ⟨found.1, found.2, (eq_of_cut? hc).symm⟩ h

/-- The first occurrence of the mark in the text is the one after `before`. -/
def FirstAt (mark before s : List Char) : Prop :=
  before ++ mark <+: s ∧ ∀ earlier, earlier ++ mark <+: s → before.length ≤ earlier.length

/-- A search up to a mark that is there stops at this mark or before it. -/
theorem exists_cut?_append_mark (mark before : List Char) :
    ∃ found left, cut? mark (before ++ mark) = some (found, left) ∧
      found.length + left.length = before.length := by
  have hne := cut?_ne_none mark before []
  rw [List.append_nil] at hne
  obtain ⟨⟨found, left⟩, hc⟩ := Option.ne_none_iff_exists'.1 hne
  refine ⟨found, left, hc, ?_⟩
  have hlength := length_eq_of_cut? hc
  rw [List.length_append] at hlength
  omega

/-- A search finds the first occurrence. -/
theorem firstAt_of_cut? {mark s before after : List Char}
    (h : cut? mark s = some (before, after)) : FirstAt mark before s := by
  refine ⟨⟨after, (eq_of_cut? h).symm⟩, ?_⟩
  rintro earlier ⟨rest, rfl⟩
  obtain ⟨found, left, hc, hlength⟩ := exists_cut?_append_mark mark earlier
  rw [cut?_append_of_some hc] at h
  cases h
  omega

theorem FirstAt.unique {mark s before before' : List Char} (h : FirstAt mark before s)
    (h' : FirstAt mark before' s) : before = before' := by
  have hlength : before.length = before'.length :=
    Nat.le_antisymm (h.2 before' h'.1) (h'.2 before h.1)
  have hprefix := (List.prefix_append before mark).trans h.1
  have hprefix' := (List.prefix_append before' mark).trans h'.1
  have hle := Nat.le_of_eq hlength
  exact (List.prefix_of_prefix_length_le hprefix hprefix' hle).eq_of_length hlength

/-- The part before the first mark does not hold the mark. -/
theorem not_infix_of_cut? {mark s before after : List Char} (hmark : mark ≠ [])
    (h : cut? mark s = some (before, after)) : ¬ mark <:+: before := by
  rintro ⟨earlier, rest, rfl⟩
  have hpos : 0 < mark.length := List.length_pos_iff.2 hmark
  have hstart : earlier ++ mark <+: s := by
    rw [eq_of_cut? h]
    exact ⟨rest ++ (mark ++ after), by simp⟩
  have hle := (firstAt_of_cut? h).2 earlier hstart
  simp only [List.length_append] at hle
  omega

/-- A mark that was found is found at the same place whatever stands after it. -/
theorem cut?_replace {mark s before after : List Char} (h : cut? mark s = some (before, after))
    (t : List Char) : cut? mark (before ++ mark ++ t) = some (before, t) := by
  obtain ⟨found, left, hc, hlength⟩ := exists_cut?_append_mark mark before
  have hlonger := cut?_append_of_some hc after
  rw [← eq_of_cut? h, h] at hlonger
  obtain ⟨rfl, -⟩ := Prod.mk.inj (Option.some.inj hlonger)
  obtain rfl : left = [] := List.length_eq_zero_iff.1 (by omega)
  exact cut?_append_of_some hc t

/-- A mark that ends after another one is not found up to the end of that. -/
theorem cut?_eq_none_of_lt {mark mark' s before after : List Char}
    (h : cut? mark s = some (before, after))
    (hlater : ∀ before' after', cut? mark' s = some (before', after') →
      before.length + mark.length < before'.length + mark'.length) :
    cut? mark' (before ++ mark) = none := by
  rw [Option.eq_none_iff_forall_ne_some]
  rintro ⟨before', left⟩ hc
  have hlonger := cut?_append_of_some hc after
  rw [← eq_of_cut? h] at hlonger
  have hlt := hlater _ _ hlonger
  have hlength := length_eq_of_cut? hc
  rw [List.length_append] at hlength
  omega

/-- A mark that is found only when the text goes on ends in what was added. -/
theorem length_lt_of_cut?_append {mark s t before after : List Char} (h : cut? mark s = none)
    (hc : cut? mark (s ++ t) = some (before, after)) :
    s.length < before.length + mark.length := by
  refine Nat.lt_of_not_le fun hle => ?_
  have he : s ++ t = (before ++ mark) ++ after := eq_of_cut? hc
  have hstart : before ++ mark <+: s := by
    refine List.prefix_of_prefix_length_le ⟨after, he.symm⟩ ⟨t, rfl⟩ ?_
    simpa using hle
  obtain ⟨rest, rfl⟩ := hstart
  exact cut?_ne_none mark before rest h

/-- A text starts with a mark if a part at its start does that is long enough. -/
theorem isPrefix_append_iff {mark s : List Char} (h : mark.length ≤ s.length) (t : List Char) :
    mark <+: s ++ t ↔ mark <+: s :=
  ⟨fun hm => List.prefix_of_prefix_length_le hm (List.prefix_append s t) h,
    fun hm => hm.trans (List.prefix_append s t)⟩

/-- A text ends in what its end ends in. -/
theorem mem_getLast?_of_suffix {s t : List Char} (hsuffix : s <:+ t) {c : Char}
    (h : c ∈ s.getLast?) : c ∈ t.getLast? := by
  obtain ⟨before, rfl⟩ := hsuffix
  rw [Option.mem_def] at h ⊢
  rw [List.getLast?_append, h]
  rfl

/-- A mark is not found across the end of a text that ends in another character. -/
theorem cut?_append_of_none {mark s : List Char} (h : cut? mark s = none)
    (hend : ∀ c ∈ s.getLast?, c ∉ mark) (t : List Char) :
    cut? mark (s ++ t) = (cut? mark t).map fun (lead, rest) => (s ++ lead, rest) := by
  induction s with
  | nil => simp
  | cons c s ih =>
      cases hs : strip? mark (c :: s) with
      | some rest => rw [cut?_cons_of_some hs] at h; cases h
      | none =>
          rw [cut?_cons_of_none hs, Option.map_eq_none_iff] at h
          have hskip : strip? mark (c :: (s ++ t)) = none := by
            by_cases hlength : mark.length ≤ (c :: s).length
            · exact strip?_append_of_none hs hlength t
            · -- The mark would hold the end of the text.
              rw [Option.eq_none_iff_forall_ne_some]
              intro rest hrest
              have hstart : c :: s <+: mark := List.prefix_of_prefix_length_le ⟨t, rfl⟩
                ⟨rest, (strip?_eq_some_iff.1 hrest).symm⟩ (Nat.le_of_not_le hlength)
              obtain ⟨d, hd⟩ := Option.isSome_iff_exists.1
                (List.getLast?_isSome.2 (List.cons_ne_nil c s))
              exact hend d hd (hstart.subset (List.mem_of_getLast? hd))
          rw [List.cons_append, cut?_cons_of_none hskip,
            ih h fun d hd => hend d (mem_getLast?_of_suffix (List.suffix_cons c s) hd)]
          cases cut? mark t <;> rfl

/-- So a mark right after such a text is the first one. -/
theorem cut?_append_mark {mark s : List Char} (h : cut? mark s = none)
    (hend : ∀ c ∈ s.getLast?, c ∉ mark) : cut? mark (s ++ mark) = some (s, []) := by
  have hmark : cut? mark mark = some ([], []) := by
    have hstrip : strip? mark mark = some [] := strip?_eq_some_iff.2 (List.append_nil mark).symm
    cases mark with
    | nil => rfl
    | cons c mark => exact cut?_cons_of_some hstrip
  rw [cut?_append_of_none h hend, hmark]
  simp

/-- A character that is not in the mark does not end it. -/
theorem cut?_concat_of_not_mem {mark s : List Char} {c : Char} (hmark : mark ≠ []) (hc : c ∉ mark)
    (h : cut? mark s = none) : cut? mark (s ++ [c]) = none := by
  rw [cut?_eq_none_iff] at h ⊢
  rw [List.infix_concat_iff]
  rintro (hsuffix | hpart)
  · obtain ⟨d, hd⟩ := Option.isSome_iff_exists.1 (List.getLast?_isSome.2 hmark)
    have hlast := mem_getLast?_of_suffix hsuffix hd
    rw [List.getLast?_concat] at hlast
    cases hlast
    exact hc (List.mem_of_getLast? hd)
  · exact h hpart

end Text

/-! ## Blanks at the ends -/

namespace Text

/-- The text is empty or starts with something other than a blank. -/
def StartsSolid (s : List Char) : Prop := ∀ c ∈ s.head?, isBlank c = false

theorem trimStart_of_startsSolid {s : List Char} (h : StartsSolid s) : trimStart s = s := by
  cases s with
  | nil => rfl
  | cons c s =>
      rw [trimStart_cons, h c rfl]
      rfl

/-- The text is empty or ends with something other than a blank. -/
def EndsSolid (s : List Char) : Prop := ∀ c ∈ s.getLast?, isBlank c = false

/-- There is nothing to trim. -/
structure Solid (s : List Char) : Prop where
  starts : StartsSolid s
  ends : EndsSolid s

theorem Solid.of_forall {s : List Char} (h : ∀ c ∈ s, isBlank c = false) : Solid s :=
  ⟨fun c hc => h c (List.mem_of_mem_head? hc), fun c hc => h c (List.mem_of_getLast? hc)⟩

theorem StartsSolid.append {s : List Char} (h : StartsSolid s) (hne : s ≠ []) (t : List Char) :
    StartsSolid (s ++ t) := by
  obtain ⟨c, s, rfl⟩ := List.exists_cons_of_ne_nil hne
  exact h

theorem EndsSolid.append {t : List Char} (h : EndsSolid t) (hne : t ≠ []) (s : List Char) :
    EndsSolid (s ++ t) := by
  obtain ⟨c, hc⟩ := List.getLast?_isSome.2 hne |> Option.isSome_iff_exists.1
  rw [EndsSolid, List.getLast?_append, hc]
  exact fun d hd => h d (hc ▸ hd)

theorem Solid.append_cons {s t : List Char} (hs : Solid s) (hsne : s ≠ []) (ht : Solid t)
    (htne : t ≠ []) (c : Char) : Solid (s ++ c :: t) where
  starts := hs.starts.append hsne _
  ends := by
    rw [← List.singleton_append, ← List.append_assoc]
    exact ht.ends.append htne _

theorem EndsSolid.of_suffix {s t : List Char} (h : EndsSolid t) (hsuffix : s <:+ t) :
    EndsSolid s := fun c hc => h c (mem_getLast?_of_suffix hsuffix hc)

theorem trimEnd_of_endsSolid {s : List Char} (h : EndsSolid s) : trimEnd s = s := by
  have hreverse : StartsSolid s.reverse := fun c hc => h c (by rwa [List.head?_reverse] at hc)
  have hdrop : s.reverse.dropWhile isBlank = s.reverse := trimStart_of_startsSolid hreverse
  rw [trimEnd, hdrop, List.reverse_reverse]

theorem trim_of_solid {s : List Char} (h : Solid s) : trim s = s := by
  rw [trim, trimStart_of_startsSolid h.starts, trimEnd_of_endsSolid h.ends]

theorem startsSolid_trimStart (s : List Char) : StartsSolid (trimStart s) := by
  intro c hc
  obtain ⟨r, hr⟩ := List.head?_eq_some_iff.1 hc
  exact isBlank_of_trimStart_eq_cons hr

theorem endsSolid_trimEnd (s : List Char) : EndsSolid (trimEnd s) := by
  intro c hc
  rw [trimEnd, List.getLast?_reverse] at hc
  exact startsSolid_trimStart s.reverse c hc

/-- Trimming the end leaves the start of the text. -/
theorem trimEnd_isPrefix (s : List Char) : trimEnd s <+: s := by
  obtain ⟨blanks, -, h⟩ := exists_trimEnd_append s
  exact ⟨blanks, h⟩

/-- Trimming leaves nothing to trim. -/
theorem solid_trim (s : List Char) : Solid (trim s) where
  starts c hc := by
    refine startsSolid_trimStart s c ?_
    obtain ⟨r, hr⟩ := List.head?_eq_some_iff.1 hc
    obtain ⟨blanks, hstart⟩ := trimEnd_isPrefix (trimStart s)
    rw [← hstart]
    show ((trim s) ++ blanks).head? = some c
    rw [hr]
    rfl
  ends := endsSolid_trimEnd (trimStart s)

/-- Trimming the start does not reach a text that starts with something else. -/
theorem trimStart_append {t : List Char} (h : StartsSolid t) (s : List Char) :
    trimStart (s ++ t) = trimStart s ++ t := by
  induction s with
  | nil => exact trimStart_of_startsSolid h
  | cons c s ih =>
      rw [List.cons_append, trimStart_cons, trimStart_cons, ih]
      split <;> rfl

/-- Trimming the end does not reach a text that ends in something else. -/
theorem trimEnd_append {r : List Char} (h : EndsSolid r) (s : List Char) :
    trimEnd (r ++ s) = r ++ trimEnd s := by
  have hreverse : StartsSolid r.reverse := fun c hc => h c (by rwa [List.head?_reverse] at hc)
  have hdrop : (s.reverse ++ r.reverse).dropWhile isBlank =
      s.reverse.dropWhile isBlank ++ r.reverse := trimStart_append hreverse s.reverse
  rw [trimEnd, trimEnd, List.reverse_append, hdrop, List.reverse_append, List.reverse_reverse]

end Text

end SqlTemplates
