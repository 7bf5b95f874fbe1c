import SqlTemplates.Proofs.Marks

/-!
# How far a tag reaches

A tag is read up to its closing delimiter and no further, so what follows a tag does not
change it.  The text after it may be any text, of which a trim mark takes the blanks
(`Tag.followedBy`).

`Tag.Ending` says how reading a tag ends, for every text at once: there is a tag, or a tag
that holds nothing but blanks, and in both cases the same comes out whatever follows; or no
delimiter closes the tag, and the text is quoted up to where the tag starts.  Each reader of
the scanner ends so (`Tag.Start.ending_close`, `Tag.Start.ending_comment`,
`Tag.Start.ending_tag`), up to a whole tag (`Tag.ending_ofCut`).

`Tag.Stands` is the place of a tag in a text: all of the text is in the tag, around it, or
dropped next to it by a backslash or a trim mark.
-/

namespace SqlTemplates

namespace Tag

/-! ## Trim marks -/

/-- A trim mark stands after the opening delimiter. -/
def TrimsBefore (raw : List Char) : Prop :=
  openMark ++ ['~'] <+: raw ∨ openMark ++ ['{', '~'] <+: raw

/-- A trim mark stands before the closing delimiter. -/
def TrimsAfter (raw : List Char) : Prop :=
  '~' :: closeMark <:+ raw ∨ '~' :: wideCloseMark <:+ raw

instance : DecidablePred TrimsBefore := fun _ => inferInstanceAs (Decidable (_ ∨ _))

instance : DecidablePred TrimsAfter := fun _ => inferInstanceAs (Decidable (_ ∨ _))

/-- The tag with this text after it. -/
def followedBy (tag : Tag) (t : List Char) : Tag :=
  { tag with after := if TrimsAfter tag.raw then Text.trimStart t else t }

theorem trimsAfter_closeMark {s : List Char} (h : s.getLast? ≠ some '}') :
    TrimsAfter (s ++ closeMark) ↔ s.getLast? = some '~' := by
  rcases List.eq_nil_or_concat s with rfl | ⟨s, c, rfl⟩
  · decide
  · have hc : '}' ≠ c := by simpa [eq_comm] using h
    simp [TrimsAfter, closeMark, wideCloseMark, ← List.reverse_prefix, hc, eq_comm]

theorem trimsAfter_wideCloseMark (s : List Char) :
    TrimsAfter (s ++ wideCloseMark) ↔ s.getLast? = some '~' := by
  rcases List.eq_nil_or_concat s with rfl | ⟨s, c, rfl⟩
  · decide
  · simp [TrimsAfter, closeMark, wideCloseMark, ← List.reverse_prefix, eq_comm]

theorem not_trimsAfter_longCloseMark (s : List Char) : ¬ TrimsAfter (s ++ longCloseMark) := by
  simp [TrimsAfter, closeMark, wideCloseMark, longCloseMark, ← List.reverse_prefix]

theorem trimsAfter_longTrimMark (s : List Char) : TrimsAfter (s ++ longTrimMark) := by
  simp [TrimsAfter, closeMark, wideCloseMark, longTrimMark, ← List.reverse_prefix]

/-! ## How reading a tag ends -/

/-- How reading a tag from the text `s` ends, where `lead` stands before the tag and `mark` has
been read of it. -/
inductive Ending (lead mark : List Char) (read? : List Char → Except SyntaxError Tag)
    (s : List Char) : Prop
  /-- There is a tag, and it is the same whatever follows. -/
  | closed (tag : Tag) (inside rest : List Char) :
      s = inside ++ rest → closeMark <:+ inside → tag.raw = mark ++ inside →
      (∀ t, read? (inside ++ t) = .ok (tag.followedBy t)) → Ending lead mark read? s
  /-- There is a tag with nothing in it, whatever follows. -/
  | empty (inside rest : List Char) :
      s = inside ++ rest → closeMark <:+ inside →
      (∀ t, read? (inside ++ t) = .error ⟨.emptyTag, mark ++ inside⟩) → Ending lead mark read? s
  /-- No delimiter closes the tag, and the error quotes the text up to what was read of it. -/
  | unclosed (inside rest : List Char) :
      s = inside ++ rest →
      read? s = .error (.atEnd .unclosedTag (lead ++ (mark ++ inside))) → Ending lead mark read? s

namespace Ending

variable {lead mark s : List Char} {f g : List Char → Except SyntaxError Tag}

/-- What is read before the end of the tag holds two characters. -/
theorem take_two {inside : List Char} (h : closeMark <:+ inside) (t : List Char) :
    (inside ++ t).take 2 = inside.take 2 :=
  List.take_append_of_le_length h.length_le

theorem head?_of_take_two {t : List Char} (h : t.take 2 = s.take 2) : t.head? = s.head? := by
  simpa [List.head?_take] using congrArg List.head? h

/-- Readers that agree wherever a text starts with the same two characters end alike. -/
theorem congr (h : Ending lead mark g s) (hfg : ∀ t, t.take 2 = s.take 2 → f t = g t) :
    Ending lead mark f s := by
  cases h with
  | closed tag inside rest hs hclose hraw hg =>
      refine .closed tag inside rest hs hclose hraw fun t => ?_
      rw [← hg t]
      exact hfg _ (by rw [hs, take_two hclose, take_two hclose])
  | empty inside rest hs hclose hg =>
      refine .empty inside rest hs hclose fun t => ?_
      rw [← hg t]
      exact hfg _ (by rw [hs, take_two hclose, take_two hclose])
  | unclosed inside rest hs hg => exact .unclosed inside rest hs ((hfg s rfl).trans hg)

/-- A reader may read one character and go on as another one. -/
theorem push {c : Char} (h : Ending lead (mark ++ [c]) g s) (hfg : ∀ t, f (c :: t) = g t) :
    Ending lead mark f (c :: s) := by
  cases h with
  | closed tag inside rest hs hclose hraw hg =>
      exact .closed tag (c :: inside) rest (by rw [hs]; rfl)
        (hclose.trans (List.suffix_cons c inside)) (by simpa using hraw)
        fun t => (hfg _).trans (hg t)
  | empty inside rest hs hclose hg =>
      exact .empty (c :: inside) rest (by rw [hs]; rfl)
        (hclose.trans (List.suffix_cons c inside))
        fun t => (hfg _).trans (by simpa using hg t)
  | unclosed inside rest hs hg =>
      exact .unclosed (c :: inside) rest (by rw [hs]; rfl)
        ((hfg s).trans (by simpa using hg))

/-- A reader may find at once that no delimiter closes the tag. -/
theorem of_unclosed (h : f s = .error (.atEnd .unclosedTag (lead ++ mark))) :
    Ending lead mark f s :=
  .unclosed [] s rfl (by rw [List.append_nil]; exact h)

end Ending

namespace Start

/-- What stands before the first closing delimiter does not end in a brace. -/
theorem getLast?_of_cut?_closeMark {s inside rest : List Char}
    (h : Text.cut? closeMark s = some (inside, rest)) : inside.getLast? ≠ some '}' := by
  intro hlast
  obtain ⟨before, rfl⟩ := List.getLast?_eq_some_iff.1 hlast
  have hearlier : before ++ closeMark <+: s := by
    rw [Text.eq_of_cut? h]
    exact ⟨'}' :: rest, by simp [closeMark]⟩
  have hle := (Text.firstAt_of_cut? h).2 before hearlier
  rw [List.length_append, List.length_singleton] at hle
  omega

/-- A tag trims the text after it exactly if what stands inside ends in a trim mark. -/
theorem trimsAfter_iff {mark s inside rest before : List Char}
    (hmark : mark = closeMark ∨ mark = wideCloseMark)
    (hcut : Text.cut? mark s = some (inside, rest))
    (hbefore : inside = [] → before.getLast? = some '!') :
    TrimsAfter (before ++ inside ++ mark) ↔ inside.getLast? = some '~' := by
  have hlast : ∀ c, c ≠ '!' →
      ((before ++ inside).getLast? = some c ↔ inside.getLast? = some c) := by
    intro c hc
    rw [List.getLast?_append]
    cases hi : inside.getLast? with
    | none =>
        rw [List.getLast?_eq_none_iff] at hi
        simp [hbefore hi, Ne.symm hc]
    | some d => simp
  rcases hmark with rfl | rfl
  · have hbrace : (before ++ inside).getLast? ≠ some '}' :=
      mt (hlast '}' (by decide)).1 (getLast?_of_cut?_closeMark hcut)
    rw [trimsAfter_closeMark hbrace, hlast '~' (by decide)]
  · rw [trimsAfter_wideCloseMark, hlast '~' (by decide)]

/-- A tag ends at the first closing delimiter. -/
theorem ending_close (start : Start) {kind : Kind} {mark : List Char}
    (hmark : mark = closeMark ∨ mark = wideCloseMark)
    (hsign : kind = .comment → start.mark.getLast? = some '!') (s : List Char) :
    Ending start.lead start.mark (start.close kind mark) s := by
  cases hcut : Text.cut? mark s with
  | none => exact .of_unclosed (by rw [close, hcut, unclosed])
  | some found =>
      obtain ⟨inside, rest⟩ := found
      have hclose : closeMark <:+ inside ++ mark := by
        rcases hmark with rfl | rfl
        · exact List.suffix_append inside closeMark
        · exact ⟨inside ++ ['}'], by simp [closeMark, wideCloseMark]⟩
      by_cases hempty : kind ≠ .comment ∧ Text.isAllBlank (contentOf inside) = true
      · refine .empty (inside ++ mark) rest (Text.eq_of_cut? hcut) hclose fun t => ?_
        rw [close, Text.cut?_replace hcut t]
        simp only [if_pos hempty, List.append_assoc]
      · have hbefore : inside = [] → start.mark.getLast? = some '!' := by
          rintro rfl
          refine hsign (Classical.byContradiction fun hk => hempty ⟨hk, rfl⟩)
        have htrims := trimsAfter_iff hmark hcut hbefore
        refine .closed ⟨kind, start.before, contentOf inside, [], start.mark ++ inside ++ mark⟩
          (inside ++ mark) rest (Text.eq_of_cut? hcut) hclose (List.append_assoc ..) fun t => ?_
        refine close_eq_ok_iff.2 ⟨inside, t, Text.cut?_replace hcut t, hempty, ?_⟩
        simp only [followedBy, afterOf, htrims]

/-! ### Comments with dashes -/

variable {s inside rest : List Char}

/-- A comment ends at its plain delimiter if that stands nearer, whatever follows. -/
theorem longEnd?_of_close (hclose : Text.cut? longCloseMark s = some (inside, rest))
    (hnearer : ∀ before after, Text.cut? longTrimMark s = some (before, after) →
      inside.length ≤ before.length) (raw t : List Char) :
    longEnd? (inside ++ longCloseMark ++ t) = some (inside, longCloseMark,
      if TrimsAfter (raw ++ longCloseMark) then Text.trimStart t else t) := by
  have hnone : Text.cut? longTrimMark (inside ++ longCloseMark) = none := by
    refine Text.cut?_eq_none_of_lt hclose fun before after htrim => ?_
    have := hnearer before after htrim
    simp only [longCloseMark, longTrimMark, List.length_cons, List.length_nil]
    omega
  have hfound := Text.cut?_replace hclose t
  unfold longEnd?
  rw [hfound, if_neg (not_trimsAfter_longCloseMark raw)]
  cases htrim : Text.cut? longTrimMark (inside ++ longCloseMark ++ t) with
  | none => rfl
  | some found =>
      have hlater := Text.length_lt_of_cut?_append hnone htrim
      have hle : inside.length ≤ found.1.length := by
        simp only [List.length_append, longCloseMark, longTrimMark, List.length_cons,
          List.length_nil] at hlater
        omega
      exact if_pos hle

/-- The two delimiters of a comment do not end at the same place. -/
theorem length_ne_of_longMarks {inside' rest' : List Char}
    (hclose : Text.cut? longCloseMark s = some (inside, rest))
    (htrim : Text.cut? longTrimMark s = some (inside', rest')) :
    inside.length ≠ inside'.length + 1 := by
  intro hlength
  have heq := (Text.eq_of_cut? hclose).symm.trans (Text.eq_of_cut? htrim)
  have hends : inside ++ longCloseMark = inside' ++ ['-'] ++ ['-', '~', '}', '}'] := by
    rw [(List.append_inj heq (by simp [longCloseMark, longTrimMark, hlength])).1]
    simp [longTrimMark]
  exact absurd (List.append_inj' hends rfl).2 (by decide)

/-- A comment ends at its trimming delimiter if that stands nearer, whatever follows. -/
theorem longEnd?_of_trim (htrim : Text.cut? longTrimMark s = some (inside, rest))
    (hnearer : ∀ before after, Text.cut? longCloseMark s = some (before, after) →
      ¬ before.length ≤ inside.length) (raw t : List Char) :
    longEnd? (inside ++ longTrimMark ++ t) = some (inside, longTrimMark,
      if TrimsAfter (raw ++ longTrimMark) then Text.trimStart t else t) := by
  have hnone : Text.cut? longCloseMark (inside ++ longTrimMark) = none := by
    refine Text.cut?_eq_none_of_lt htrim fun before after hclose => ?_
    have := hnearer before after hclose
    have := length_ne_of_longMarks hclose htrim
    simp only [longCloseMark, longTrimMark, List.length_cons, List.length_nil]
    omega
  have hfound := Text.cut?_replace htrim t
  unfold longEnd?
  rw [hfound, if_pos (trimsAfter_longTrimMark raw)]
  cases hclose : Text.cut? longCloseMark (inside ++ longTrimMark ++ t) with
  | none => rfl
  | some found =>
      have hlater := Text.length_lt_of_cut?_append hnone hclose
      have hgt : ¬ found.1.length ≤ inside.length := by
        simp only [List.length_append, longCloseMark, longTrimMark, List.length_cons,
          List.length_nil] at hlater
        omega
      exact if_neg hgt

/-- The nearer end of a comment is the same whatever follows. -/
theorem longEnd?_reach {mark after : List Char} (h : longEnd? s = some (inside, mark, after)) :
    closeMark <:+ mark ∧ ∃ rest, s = inside ++ mark ++ rest ∧
      ∀ raw t, longEnd? (inside ++ mark ++ t) =
        some (inside, mark, if TrimsAfter (raw ++ mark) then Text.trimStart t else t) := by
  unfold longEnd? at h
  split at h
  · cases h
  · next hclose hnone =>
      cases h
      refine ⟨by decide, _, Text.eq_of_cut? hclose, longEnd?_of_close hclose ?_⟩
      exact fun _ _ htrim => by rw [hnone] at htrim; cases htrim
  · next hnone htrim =>
      cases h
      refine ⟨by decide, _, Text.eq_of_cut? htrim, longEnd?_of_trim htrim ?_⟩
      exact fun _ _ hclose => by rw [hnone] at hclose; cases hclose
  · next hclose htrim =>
      split at h
      · next hle =>
          cases h
          refine ⟨by decide, _, Text.eq_of_cut? hclose, longEnd?_of_close hclose ?_⟩
          exact fun _ _ hfound => by rw [htrim] at hfound; cases hfound; exact hle
      · next hgt =>
          cases h
          refine ⟨by decide, _, Text.eq_of_cut? htrim, longEnd?_of_trim htrim ?_⟩
          exact fun _ _ hfound => by rw [hclose] at hfound; cases hfound; exact hgt

/-- A comment with dashes ends at the nearer of its delimiters. -/
theorem ending_dashes (start : Start) (body : List Char) :
    Ending start.lead start.mark start.comment ('-' :: '-' :: body) := by
  cases hend : longEnd? body with
  | none =>
      refine .unclosed ['-', '-'] body rfl ?_
      simp [comment, hend, unclosed, push]
  | some found =>
      obtain ⟨inside, mark, after⟩ := found
      obtain ⟨hclose, rest, hbody, hreach⟩ := longEnd?_reach hend
      let raw := start.mark ++ '-' :: '-' :: inside
      have hends : closeMark <:+ '-' :: '-' :: (inside ++ mark) :=
        hclose.trans (List.suffix_append ('-' :: '-' :: inside) mark)
      refine .closed ⟨.comment, start.before, inside, [], raw ++ mark⟩
        ('-' :: '-' :: (inside ++ mark)) rest (by rw [hbody]; rfl) hends (by simp [raw]) fun t => ?_
      simp only [List.cons_append, comment, hreach raw t]
      simp [followedBy, push, raw]

/-- A comment without dashes ends at the first closing delimiter. -/
theorem comment_eq_close (start : Start) {s : List Char}
    (hs : ∀ body, s ≠ '-' :: '-' :: body) :
    start.comment s = start.close .comment closeMark s := by
  unfold comment
  split
  · exact absurd rfl (hs _)
  · rfl

/-- A comment ends at the first delimiter that can close it. -/
theorem ending_comment (start : Start) (hsign : start.mark.getLast? = some '!') (s : List Char) :
    Ending start.lead start.mark start.comment s := by
  by_cases hdashes : ∃ body, s = '-' :: '-' :: body
  · obtain ⟨body, rfl⟩ := hdashes
    exact start.ending_dashes body
  · have hplain : Ending start.lead start.mark (start.close .comment closeMark) s :=
      start.ending_close (.inl rfl) (fun _ => hsign) s
    refine hplain.congr fun t ht => comment_eq_close start fun body hbody => hdashes ?_
    rw [hbody] at ht
    exact ⟨s.drop 2, by rw [← List.take_append_drop 2 s, ← ht]; rfl⟩

/-! ### Whole tags -/

/-- A tag without a mark is an expression. -/
theorem tag_eq_close (start : Start) {s : List Char} (hs : s ≠ [])
    (hmark : ∀ c ∈ s.head?, c ∉ ['{', '!', '#', '/', '>']) :
    start.tag s = start.close .expression closeMark s := by
  unfold tag
  split
  · exact absurd rfl hs
  all_goals first | rfl | exact absurd (by simp) (hmark _ rfl)

theorem trimMark_of_head?_ne (start : Start) {s : List Char} (h : s.head? ≠ some '~') :
    start.trimMark s = (start, s) := by
  unfold trimMark
  split
  · exact absurd rfl h
  · rfl

/-- A reader may read a trim mark first, if there is one. -/
theorem ending_trimMark {read? : Start → List Char → Except SyntaxError Tag}
    (h : ∀ (start : Start) (s : List Char), Ending start.lead start.mark (read? start) s)
    (start : Start) (s : List Char) :
    Ending start.lead start.mark (fun s => read? (start.trimMark s).1 (start.trimMark s).2) s := by
  by_cases htrim : s.head? = some '~'
  · obtain ⟨body, rfl⟩ := List.head?_eq_some_iff.1 htrim
    let next : Start := { start.push '~' with before := Text.trimEnd start.before }
    have hbody : Ending start.lead (start.mark ++ ['~']) (read? next) body := h next body
    exact hbody.push fun _ => rfl
  · refine (h start s).congr fun t ht => ?_
    have hhead : t.head? ≠ some '~' := by
      rw [Ending.head?_of_take_two ht]
      exact htrim
    simp only [trimMark_of_head?_ne start hhead]

/-- A tag ends at its closing delimiter. -/
theorem ending_tag (start : Start) (s : List Char) :
    Ending start.lead start.mark start.tag s := by
  cases s with
  | nil => exact .of_unclosed rfl
  | cons c s =>
      have hclose : ∀ (kind : Kind) (next : Start) {mark : List Char}, kind ≠ .comment →
          mark = closeMark ∨ mark = wideCloseMark →
          ∀ s, Ending next.lead next.mark (next.close kind mark) s :=
        fun _ next _ hkind hmark => next.ending_close hmark fun hk => absurd hk hkind
      by_cases hmark : c ∈ ['{', '!', '#', '/', '>']
      · simp only [List.mem_cons, List.not_mem_nil, or_false] at hmark
        rcases hmark with rfl | rfl | rfl | rfl | rfl
        · have hwide : Ending start.lead (start.push '{').mark _ s :=
            ending_trimMark (fun next => hclose .expression next (by decide) (.inr rfl))
              (start.push '{') s
          exact hwide.push fun _ => rfl
        · have hcomment : Ending start.lead (start.push '!').mark _ s :=
            (start.push '!').ending_comment (by simp [push]) s
          exact hcomment.push fun _ => rfl
        · exact (hclose .opening (start.push '#') (by decide) (.inl rfl) s).push fun _ => rfl
        · exact (hclose .closing (start.push '/') (by decide) (.inl rfl) s).push fun _ => rfl
        · exact (hclose .inclusion (start.push '>') (by decide) (.inl rfl) s).push fun _ => rfl
      · refine (hclose .expression start (by decide) (.inl rfl) (c :: s)).congr fun t ht => ?_
        have hhead := Ending.head?_of_take_two ht
        refine tag_eq_close start (fun hnil => ?_) fun d hd => ?_
        · rw [hnil] at hhead
          cases hhead
        · rw [hhead] at hd
          cases hd
          exact hmark

end Start

/-- A tag of a delimiter that is not escaped ends at its closing delimiter. -/
theorem ending_ofCut {lead text : List Char} (hlead : Lead.of lead = .plain text)
    (rest : List Char) : Ending lead openMark (ofCut lead) rest := by
  have hread : ofCut lead = fun s =>
      (Start.trimMark ⟨lead, text, openMark⟩ s).1.tag
        (Start.trimMark ⟨lead, text, openMark⟩ s).2 := by
    funext s
    rw [ofCut, hlead]
  rw [hread]
  exact Start.ending_trimMark Start.ending_tag ⟨lead, text, openMark⟩ rest

/-! ## The place of a tag -/

namespace Lead

/-- A text ends in two backslashes, in one, or in none. -/
theorem exists_slashes (lead : List Char) :
    (∃ s, lead = s ++ ['\\', '\\']) ∨
      (∃ s, lead = s ++ ['\\'] ∧ s.getLast? ≠ some '\\') ∨ lead.getLast? ≠ some '\\' := by
  rcases List.eq_nil_or_concat lead with rfl | ⟨s, c, rfl⟩
  · exact .inr (.inr (by decide))
  · by_cases hc : c = '\\'
    · subst hc
      by_cases hs : s.getLast? = some '\\'
      · obtain ⟨s, rfl⟩ := List.getLast?_eq_some_iff.1 hs
        exact .inl ⟨s, by simp⟩
      · exact .inr (.inl ⟨s, List.concat_eq_append .., hs⟩)
    · exact .inr (.inr (by simpa using hc))

theorem of_two_slashes (s : List Char) : of (s ++ ['\\', '\\']) = .plain (s ++ ['\\']) := by
  simp [of]

theorem of_slash {s : List Char} (h : s.getLast? ≠ some '\\') :
    of (s ++ ['\\']) = .escaped s := by
  rcases List.eq_nil_or_concat s with rfl | ⟨s, c, rfl⟩
  · rfl
  · have hc : c ≠ '\\' := by simpa using h
    simp [of, hc]

theorem of_no_slash {s : List Char} (h : s.getLast? ≠ some '\\') : of s = .plain s := by
  rcases List.eq_nil_or_concat s with rfl | ⟨s, c, rfl⟩
  · rfl
  · have hc : c ≠ '\\' := by simpa using h
    simp [of, hc]

end Lead

/-- What a tag drops of the text before it: the last of two or more backslashes, or else the
blanks if it trims them. -/
def DropsBefore (tag : Tag) (left : List Char) : Prop :=
  if ['\\', '\\'] <:+ tag.before ++ left then left = ['\\']
  else if TrimsBefore tag.raw then
    (∀ c ∈ left, Text.isBlank c = true) ∧ Text.EndsSolid tag.before
  else left = []

/-- What a tag drops of the text after it: the blanks if it trims them. -/
def DropsAfter (tag : Tag) (right : List Char) : Prop :=
  if TrimsAfter tag.raw then
    (∀ c ∈ right, Text.isBlank c = true) ∧ Text.StartsSolid tag.after
  else right = []

/-- The place of a tag in a text, where `left` and `right` are dropped next to it. -/
structure Stands (tag : Tag) (left right s : List Char) : Prop where
  /-- Nothing of the text is lost. -/
  text : s = tag.before ++ left ++ tag.raw ++ right ++ tag.after
  unmarked : ¬ openMark <:+: tag.before
  escaped : tag.kind = .escaped → tag.raw = '\\' :: openMark ∧ left = [] ∧ right = []
  /-- A tag that counts starts with the first delimiter. -/
  opens : tag.kind ≠ .escaped →
    openMark <+: tag.raw ∧ Text.FirstAt openMark (tag.before ++ left) s
  dropsBefore : tag.kind ≠ .escaped → tag.DropsBefore left
  dropsAfter : tag.kind ≠ .escaped → tag.DropsAfter right

namespace Stands

variable {tag : Tag} {left right s : List Char}

theorem two_le_length_raw (h : tag.Stands left right s) : 2 ≤ tag.raw.length := by
  by_cases hk : tag.kind = .escaped
  · rw [(h.escaped hk).1]
    decide
  · exact (h.opens hk).1.length_le

theorem dropsAfter_or (h : tag.Stands left right s) :
    TrimsAfter tag.raw ∧ (∀ c ∈ right, Text.isBlank c = true) ∧ Text.StartsSolid tag.after ∨
      ¬ TrimsAfter tag.raw ∧ right = [] := by
  by_cases hk : tag.kind = .escaped
  · obtain ⟨hraw, -, hright⟩ := h.escaped hk
    exact .inr ⟨by rw [hraw]; decide, hright⟩
  · have hdrops := h.dropsAfter hk
    rw [DropsAfter] at hdrops
    split at hdrops
    · next htrims => exact .inl ⟨htrims, hdrops⟩
    · next htrims => exact .inr ⟨htrims, hdrops⟩

theorem startsSolid_after (h : tag.Stands left right s) (htrims : TrimsAfter tag.raw) :
    Text.StartsSolid tag.after := by
  rcases h.dropsAfter_or with ⟨-, -, hsolid⟩ | ⟨hno, -⟩
  · exact hsolid
  · exact absurd htrims hno

/-- What a tag drops of the text after it, it drops whatever follows that. -/
theorem followedBy (h : tag.Stands left right s) {t : List Char}
    (ht : TrimsAfter tag.raw → Text.StartsSolid t) :
    tag.followedBy (right ++ t) = { tag with after := t } := by
  rcases h.dropsAfter_or with ⟨htrims, hblank, -⟩ | ⟨hno, rfl⟩
  · rw [Tag.followedBy, if_pos htrims, Text.trimStart, List.dropWhile_append_of_pos hblank]
    exact congrArg (Tag.mk _ _ _ · _) (Text.trimStart_of_startsSolid (ht htrims))
  · rw [Tag.followedBy, if_neg hno, List.nil_append]

end Stands

namespace Start

variable {start : Start} {s : List Char} {tag : Tag}

theorem kind_close {kind : Kind} {mark : List Char} (h : start.close kind mark s = .ok tag) :
    tag.kind = kind := by
  obtain ⟨_, _, _, _, rfl⟩ := close_eq_ok_iff.1 h
  rfl

/-- The tag of a delimiter that is not escaped is not an escaped one. -/
theorem kind_tag_ne (h : start.tag s = .ok tag) : tag.kind ≠ .escaped := by
  have hclose : ∀ {start : Start} {kind : Kind} {mark body : List Char},
      start.close kind mark body = .ok tag → kind ≠ .escaped → tag.kind ≠ .escaped :=
    fun hc hk => kind_close hc ▸ hk
  unfold Start.tag at h
  split at h
  · cases h
  · exact hclose h (by decide)
  · unfold comment at h
    split at h
    · dsimp only at h
      split at h <;> cases h
      exact Kind.noConfusion
    · exact hclose h (by decide)
  · exact hclose h (by decide)
  · exact hclose h (by decide)
  · exact hclose h (by decide)
  · exact hclose h (by decide)

theorem before_of_close {kind : Kind} {mark : List Char}
    (h : start.close kind mark s = .ok tag) : tag.before = start.before := by
  obtain ⟨_, _, _, _, rfl⟩ := close_eq_ok_iff.1 h
  rfl

theorem before_of_comment (h : start.comment s = .ok tag) : tag.before = start.before := by
  unfold comment at h
  split at h
  · dsimp only at h
    split at h
    · cases h
    · cases h
      rfl
  · exact before_of_close h

/-- A third brace may have a trim mark of its own. -/
theorem before_of_tag (h : start.tag s = .ok tag) :
    tag.before = if ['{', '~'] <+: s then Text.trimEnd start.before else start.before := by
  unfold Start.tag at h
  split at h
  · cases h
  · next s =>
      rw [before_of_close h]
      by_cases htrim : s.head? = some '~'
      · obtain ⟨s, rfl⟩ := List.head?_eq_some_iff.1 htrim
        rw [if_pos (by simp)]
        rfl
      · rw [trimMark_of_head?_ne _ htrim, if_neg]
        · rfl
        · rintro ⟨t, ht⟩
          cases ht
          exact htrim rfl
  · rw [before_of_comment h, if_neg (by simp)]
    rfl
  · rw [before_of_close h, if_neg (by simp)]
    rfl
  · rw [before_of_close h, if_neg (by simp)]
    rfl
  · rw [before_of_close h, if_neg (by simp)]
    rfl
  · next hbrace _ _ _ _ =>
      rw [before_of_close h, if_neg]
      rintro ⟨t, rfl⟩
      exact hbrace _ rfl

end Start

/-- A tag that counts trims the text before it exactly if it has a trim mark there. -/
theorem before_of_ofCut {lead text inside rest : List Char} {tag : Tag}
    (hlead : Lead.of lead = .plain text) (h : ofCut lead (inside ++ rest) = .ok tag)
    (hinside : closeMark <:+ inside) (hraw : tag.raw = openMark ++ inside) :
    tag.before = if TrimsBefore tag.raw then Text.trimEnd text else text := by
  have hlength : ['{', '~'].length ≤ inside.length := hinside.length_le
  have hshorter : ['~'].length ≤ inside.length := Nat.le_of_succ_le hlength
  have htrims : TrimsBefore tag.raw ↔
      ['~'] <+: inside ++ rest ∨ ['{', '~'] <+: inside ++ rest := by
    rw [Text.isPrefix_append_iff hshorter, Text.isPrefix_append_iff hlength, hraw,
      TrimsBefore, List.prefix_append_right_inj, List.prefix_append_right_inj]
  rw [ofCut, hlead] at h
  dsimp only at h
  by_cases htrim : (inside ++ rest).head? = some '~'
  · obtain ⟨body, hbody⟩ := List.head?_eq_some_iff.1 htrim
    rw [hbody] at h htrims
    rw [if_pos (htrims.2 (.inl (by simp))), Start.before_of_tag h]
    -- A second trim mark finds nothing to trim.
    split
    · exact Text.trimEnd_of_endsSolid (Text.endsSolid_trimEnd text)
    · rfl
  · rw [Start.trimMark_of_head?_ne _ htrim] at h
    rw [Start.before_of_tag h]
    have hno : ¬ ['~'] <+: inside ++ rest := by
      rintro ⟨t, ht⟩
      exact htrim (by rw [← ht]; rfl)
    simp only [htrims, hno, false_or]

/-- The text before a tag that counts is what is left of it and what the tag drops. -/
theorem exists_dropsBefore {lead text : List Char} {tag : Tag} (hlead : Lead.of lead = .plain text)
    (hbefore : tag.before = if TrimsBefore tag.raw then Text.trimEnd text else text) :
    ∃ left, lead = tag.before ++ left ∧ tag.DropsBefore left := by
  rcases Lead.exists_slashes lead with ⟨s, rfl⟩ | ⟨s, rfl, hs⟩ | hno
  · rw [Lead.of_two_slashes] at hlead
    cases hlead
    have hsolid : Text.trimEnd (s ++ ['\\']) = s ++ ['\\'] := by
      refine Text.trimEnd_of_endsSolid fun c hc => ?_
      rw [List.getLast?_concat] at hc
      cases hc
      decide
    rw [hsolid, ite_self] at hbefore
    refine ⟨['\\'], by simp [hbefore], ?_⟩
    rw [DropsBefore, hbefore, if_pos ⟨s, by simp⟩]
  · rw [Lead.of_slash hs] at hlead
    cases hlead
  · rw [Lead.of_no_slash hno] at hlead
    cases hlead
    have hslash : ¬ ['\\', '\\'] <:+ lead := fun hsuffix =>
      hno (Text.mem_getLast?_of_suffix hsuffix rfl)
    by_cases htrims : TrimsBefore tag.raw
    · rw [if_pos htrims] at hbefore
      obtain ⟨left, hblank, hleft⟩ := Text.exists_trimEnd_append lead
      rw [← hbefore] at hleft
      refine ⟨left, hleft.symm, ?_⟩
      rw [DropsBefore, hleft, if_neg hslash, if_pos htrims, hbefore]
      exact ⟨List.all_eq_true.1 hblank, Text.endsSolid_trimEnd lead⟩
    · rw [if_neg htrims] at hbefore
      refine ⟨[], by rw [hbefore, List.append_nil], ?_⟩
      rw [DropsBefore, List.append_nil, hbefore, if_neg hslash, if_neg htrims]

/-- The text after a tag is what the tag drops and what is left of it. -/
theorem exists_dropsAfter (tag : Tag) (rest : List Char) :
    ∃ right, rest = right ++ (tag.followedBy rest).after ∧
      (tag.followedBy rest).DropsAfter right := by
  by_cases htrims : TrimsAfter tag.raw
  · refine ⟨rest.takeWhile Text.isBlank, ?_, ?_⟩
    · rw [followedBy, if_pos htrims]
      exact (Text.takeWhile_append_trimStart rest).symm
    · simp only [DropsAfter, followedBy, if_pos htrims]
      exact ⟨List.all_eq_true.1 List.all_takeWhile, Text.startsSolid_trimStart rest⟩
  · refine ⟨[], ?_, ?_⟩
    · rw [followedBy, if_neg htrims]
      rfl
    · simp only [DropsAfter, followedBy, if_neg htrims]

/-- A backslash before a delimiter makes it text. -/
theorem Lead.eq_of_escaped {lead text : List Char} (h : of lead = .escaped text) :
    lead = text ++ ['\\'] := by
  rcases exists_slashes lead with ⟨s, rfl⟩ | ⟨s, rfl, hs⟩ | hno
  · rw [of_two_slashes] at h
    cases h
  · rw [of_slash hs] at h
    cases h
    rfl
  · rw [of_no_slash hno] at h
    cases h

section

variable {s lead text rest : List Char} {tag : Tag}

/-- An escaped delimiter stands in the text, whatever follows it. -/
theorem exists_stands_of_escaped (hcut : Text.cut? openMark s = some (lead, rest))
    (hlead : Lead.of lead = .escaped text) (htag : ofCut lead rest = .ok tag) :
    ∃ left right, tag.Stands left right s ∧
      ∀ t, first? (tag.before ++ left ++ tag.raw ++ t) = .ok (some (tag.followedBy t)) := by
  obtain rfl := Lead.eq_of_escaped hlead
  have hmarkless := Text.not_infix_of_cut? (by decide) hcut
  rw [ofCut, hlead] at htag
  cases htag
  refine ⟨[], [], ⟨?_, ?_, fun _ => ⟨rfl, rfl, rfl⟩, ?_, ?_, ?_⟩, fun t => ?_⟩
  · simpa using Text.eq_of_cut? hcut
  · exact fun hm => hmarkless (hm.trans (List.prefix_append text _).isInfix)
  · exact fun hk => absurd rfl hk
  · exact fun hk => absurd rfl hk
  · exact fun hk => absurd rfl hk
  · have hcut' := Text.cut?_replace hcut t
    refine first?_eq_some_iff.2 ⟨text ++ ['\\'], t, by simpa using hcut', ?_⟩
    rw [ofCut, hlead]
    rfl

/-- A tag that counts stands in the text, whatever follows it. -/
theorem exists_stands_of_plain (hcut : Text.cut? openMark s = some (lead, rest))
    (hlead : Lead.of lead = .plain text) (htag : ofCut lead rest = .ok tag) :
    ∃ left right, tag.Stands left right s ∧
      ∀ t, first? (tag.before ++ left ++ tag.raw ++ t) = .ok (some (tag.followedBy t)) := by
  cases ending_ofCut hlead rest with
  | closed found inside after hrest hclose hraw hread =>
      rw [hrest] at hcut htag
      obtain rfl : found.followedBy after = tag := by
        rw [hread] at htag
        exact Except.ok.inj htag
      obtain ⟨left, hleft, hdropsBefore⟩ :=
        exists_dropsBefore hlead (before_of_ofCut hlead htag hclose hraw)
      obtain ⟨right, hright, hdropsAfter⟩ := exists_dropsAfter found after
      have hend : ∀ t, found.before ++ left ++ found.raw ++ t =
          lead ++ openMark ++ (inside ++ t) := fun t => by
        rw [hleft, hraw]
        simp [followedBy]
      refine ⟨left, right, ⟨?_, ?_, ?_, ?_, fun _ => hdropsBefore, fun _ => hdropsAfter⟩,
        fun t => ?_⟩
      · calc s = found.before ++ left ++ found.raw ++ after := by
              rw [Text.eq_of_cut? hcut, ← hend]
          _ = found.before ++ left ++ found.raw ++
              (right ++ (found.followedBy after).after) := by rw [← hright]
          _ = _ := by simp [followedBy]
      · have hbefore : found.before <+: lead := ⟨left, hleft.symm⟩
        exact fun hm => Text.not_infix_of_cut? (by decide) hcut (hm.trans hbefore.isInfix)
      · intro hk
        rw [ofCut, hlead] at htag
        exact absurd hk (Start.kind_tag_ne htag)
      · intro _
        rw [← hleft]
        exact ⟨⟨inside, hraw.symm⟩, Text.firstAt_of_cut? hcut⟩
      · refine first?_eq_some_iff.2 ⟨lead, inside ++ t, ?_, hread t⟩
        show Text.cut? openMark (found.before ++ left ++ found.raw ++ t) = _
        rw [hend]
        exact Text.cut?_replace hcut (inside ++ t)
  | empty inside after hrest _ hread =>
      rw [hrest, hread] at htag
      cases htag
  | unclosed inside after _ hread =>
      rw [hread] at htag
      cases htag

/-- The first tag of a text stands in it, and it is the first tag whatever follows it. -/
theorem exists_stands (h : first? s = .ok (some tag)) :
    ∃ left right, tag.Stands left right s ∧
      ∀ t, first? (tag.before ++ left ++ tag.raw ++ t) = .ok (some (tag.followedBy t)) := by
  obtain ⟨lead, rest, hcut, htag⟩ := first?_eq_some_iff.1 h
  cases hlead : Lead.of lead with
  | escaped text => exact exists_stands_of_escaped hcut hlead htag
  | plain text => exact exists_stands_of_plain hcut hlead htag

/-- Only one piece of the text before a tag can be the one that it drops. -/
theorem Stands.left_unique {left left' right right' : List Char} (h : tag.Stands left right s)
    (h' : tag.Stands left' right' s) : left = left' := by
  by_cases hk : tag.kind = .escaped
  · rw [(h.escaped hk).2.1, (h'.escaped hk).2.1]
  · exact List.append_cancel_left ((h.opens hk).2.unique (h'.opens hk).2)

/-- The first tag of a text, read up to its end, is the first tag whatever follows it. -/
theorem Stands.first?_append {left right : List Char} (h : tag.Stands left right s)
    (hfirst : first? s = .ok (some tag)) (t : List Char) :
    first? (tag.before ++ left ++ tag.raw ++ t) = .ok (some (tag.followedBy t)) := by
  obtain ⟨left', right', h', hread⟩ := exists_stands hfirst
  rw [h.left_unique h']
  exact hread t

/-- A text whose first tag has a fault: no delimiter closes the tag, or there is nothing in
it, and then this is its fault whatever follows. -/
theorem fault_of_first? {e : SyntaxError} (h : first? s = .error e) :
    ∃ lead raw rest, s = lead ++ raw ++ rest ∧ Text.FirstAt openMark lead s ∧ openMark <+: raw ∧
      (e = .atEnd .unclosedTag (lead ++ raw) ∨
        closeMark <:+ raw ∧ e = ⟨.emptyTag, raw⟩ ∧
          ∀ t, first? (lead ++ raw ++ t) = .error e) := by
  rw [first?] at h
  split at h
  · cases h
  · next lead rest hcut =>
      cases hlead : Lead.of lead with
      | escaped text =>
          rw [ofCut, hlead] at h
          cases h
      | plain text =>
          have hends : ∀ {inside after}, rest = inside ++ after →
              s = lead ++ (openMark ++ inside) ++ after := fun hrest => by
            simpa [hrest] using Text.eq_of_cut? hcut
          cases ending_ofCut hlead rest with
          | closed found inside after hrest _ _ hread =>
              rw [hrest, hread] at h
              cases h
          | empty inside after hrest hclose hread =>
              rw [hrest, hread] at h
              cases h
              refine ⟨lead, openMark ++ inside, after, hends hrest, Text.firstAt_of_cut? hcut,
                List.prefix_append openMark inside, .inr ⟨?_, rfl, fun t => ?_⟩⟩
              · exact hclose.trans (List.suffix_append openMark inside)
              · rw [hrest] at hcut
                have hcut' := Text.cut?_replace hcut (inside ++ t)
                rw [first?, ← List.append_assoc, List.append_assoc, hcut']
                simp only [hread]
                rfl
          | unclosed inside after hrest hread =>
              rw [hread] at h
              cases h
              exact ⟨lead, openMark ++ inside, after, hends hrest, Text.firstAt_of_cut? hcut,
                List.prefix_append openMark inside, .inl rfl⟩

end

end Tag

end SqlTemplates
