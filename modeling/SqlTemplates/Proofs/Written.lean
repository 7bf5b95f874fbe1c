import SqlTemplates.Proofs.Nesting
import SqlTemplates.Proofs.Seam

/-!
# Tags as they are written

`Tag.write` writes a tag around its content.  If the content can stand there as it is
(`Tag.Writable`), the tag is read back where it was written: it is the first tag of any
text that goes on with it (`Tag.first?_write`).

So a template that is put together from texts and written tags has the events of its
parts in a row (`Event.Reads.append_tag`), and its trees are those with these events
(`Event.Reads.parse_iff`).
-/

namespace SqlTemplates

/-! ## Writing a tag -/

/-- A mark is found after a text without its first character. -/
theorem Text.cut?_append_of_not_mem {c : Char} {mark s : List Char} (h : c ∉ s)
    (t : List Char) : cut? (c :: mark) (s ++ (c :: mark ++ t)) = some (s, t) := by
  induction s with
  | nil =>
      have hs : strip? (c :: mark) (c :: mark ++ t) = some t := strip?_eq_some_iff.2 rfl
      exact cut?_cons_of_some hs
  | cons d s ih =>
      simp only [List.mem_cons, not_or] at h
      have hs : strip? (c :: mark) (d :: (s ++ (c :: mark ++ t))) = none := by
        rw [strip?, if_neg h.1]
      rw [List.cons_append, cut?_cons_of_none hs, ih h.2]
      rfl

namespace Tag

/-- The mark that follows the opening delimiter of a tag of this kind. -/
def Kind.sign : Kind → List Char
  | .comment => ['!']
  | .opening => ['#']
  | .closing => ['/']
  | .inclusion => ['>']
  | .expression | .escaped => []

/-- The tag with this content. -/
def write (kind : Kind) (content : List Char) : List Char :=
  openMark ++ (kind.sign ++ (content ++ closeMark))

/-- The content can be written in a tag of this kind as it is. -/
structure Writable (kind : Kind) (content : List Char) : Prop where
  /-- The tag is neither a comment, which may have dashes, nor text. -/
  plain : kind ≠ .comment ∧ kind ≠ .escaped
  /-- The content does not hold the closing delimiter or run into it. -/
  ends : Text.cut? closeMark (content ++ closeMark) = some (content, [])
  /-- The content does not end in a trim mark. -/
  untrimmed : content.getLast? ≠ some '~'
  /-- The content does not only hold blanks. -/
  solid : Text.isAllBlank content = false
  /-- Nothing marks an expression as something else. -/
  unsigned : kind = .expression → ∀ c ∈ content.head?, c ∉ ['~', '{', '!', '#', '/', '>']

/-- A tag ends at the first delimiter that closes it, and this is right after its content. -/
theorem Start.close_append_mark {kind : Kind} {mark content : List Char} (start : Start)
    (hends : Text.cut? mark (content ++ mark) = some (content, []))
    (huntrimmed : content.getLast? ≠ some '~') (hsolid : Text.isAllBlank content = false)
    (t : List Char) :
    start.close kind mark (content ++ (mark ++ t)) =
      .ok ⟨kind, start.before, content, t, start.mark ++ content ++ mark⟩ := by
  have hcut : Text.cut? mark (content ++ (mark ++ t)) = some (content, t) := by
    rw [← List.append_assoc]
    exact Text.cut?_append_of_some hends t
  have hcontent : contentOf content = content := if_neg huntrimmed
  have hafter : afterOf content t = t := if_neg huntrimmed
  refine close_eq_ok_iff.2 ⟨content, t, hcut, ?_, ?_⟩
  · rw [hcontent, hsolid]
    exact fun hblank => Bool.false_ne_true hblank.2
  · rw [hcontent, hafter]

/-- A closing delimiter right after the text is the first one, and no trim mark stands before
it. -/
structure Closable (content : List Char) : Prop where
  markless : Text.cut? closeMark content = none
  ends : ∀ c ∈ content.getLast?, c ≠ '}' ∧ c ≠ '~'

namespace Closable

theorem of_not_mem {content : List Char} (hclose : '}' ∉ content) (htrim : '~' ∉ content) :
    Closable content where
  markless := Text.cut?_eq_none_iff.2 fun hm => hclose (hm.subset (by decide))
  ends c hc := by
    have hmem := List.mem_of_getLast? hc
    constructor <;> rintro rfl
    · exact hclose hmem
    · exact htrim hmem

theorem nil : Closable [] := of_not_mem List.not_mem_nil List.not_mem_nil

theorem not_mem_closeMark {content : List Char} (h : Closable content) :
    ∀ c ∈ content.getLast?, c ∉ closeMark := fun c hc => by
  simpa [closeMark] using (h.ends c hc).1

theorem append {s t : List Char} (hs : Closable s) (ht : Closable t) : Closable (s ++ t) where
  markless := by
    rw [Text.cut?_append_of_none hs.markless hs.not_mem_closeMark, ht.markless]
    rfl
  ends c hc := by
    rw [List.getLast?_append] at hc
    cases hlast : t.getLast? with
    | none => exact hs.ends c (by rwa [hlast] at hc)
    | some d => exact ht.ends c (by rwa [hlast] at hc ⊢)

end Closable

namespace Writable

variable {kind : Kind} {content : List Char}

theorem ne_nil (h : Writable kind content) : content ≠ [] := by
  rintro rfl
  exact absurd h.solid (by decide)

theorem of_closable (hplain : kind ≠ .comment ∧ kind ≠ .escaped) (h : Closable content)
    (hsolid : Text.isAllBlank content = false)
    (hunsigned : kind = .expression → ∀ c ∈ content.head?, c ∉ ['~', '{', '!', '#', '/', '>']) :
    Writable kind content where
  plain := hplain
  ends := Text.cut?_append_mark h.markless h.not_mem_closeMark
  untrimmed hlast := (h.ends _ hlast).2 rfl
  solid := hsolid
  unsigned := hunsigned

/-- The tag ends where it was written. -/
theorem close (h : Writable kind content) (start : Start) (t : List Char) :
    start.close kind closeMark (content ++ (closeMark ++ t)) =
      .ok ⟨kind, start.before, content, t, start.mark ++ content ++ closeMark⟩ :=
  start.close_append_mark h.ends h.untrimmed h.solid t

end Writable

theorem Start.trimMark_of_ne {c : Char} (hc : c ≠ '~') (start : Start) (s : List Char) :
    start.trimMark (c :: s) = (start, c :: s) := by
  unfold trimMark
  split
  · next he => cases he; exact absurd rfl hc
  · rfl

/-- A tag that was written is read back. -/
theorem ofCut_write {kind : Kind} {content lead : List Char} (h : Writable kind content)
    (hlead : EndsPlain lead) (t : List Char) :
    ofCut lead (kind.sign ++ (content ++ (closeMark ++ t))) =
      .ok ⟨kind, lead, content, t, write kind content⟩ := by
  rw [ofCut, Lead.of_endsPlain hlead]
  cases kind with
  | comment => exact absurd rfl h.plain.1
  | escaped => exact absurd rfl h.plain.2
  | opening => exact h.close _ t
  | closing => exact h.close _ t
  | inclusion => exact h.close _ t
  | expression =>
      obtain ⟨c, s, rfl⟩ : ∃ c s, content = c :: s := List.exists_cons_of_ne_nil h.ne_nil
      have hc : c ∉ ['~', '{', '!', '#', '/', '>'] := h.unsigned rfl c rfl
      simp only [List.mem_cons, not_or] at hc
      have hhead : ∀ d ∈ (c :: (s ++ (closeMark ++ t))).head?, d ∉ ['{', '!', '#', '/', '>'] := by
        rintro d ⟨⟩
        simpa using hc.2
      simp only [Kind.sign, List.nil_append, List.cons_append, Start.trimMark_of_ne hc.1]
      rw [Start.tag_eq_close _ (List.cons_ne_nil c _) hhead]
      exact h.close _ t

/-- A written tag is the first tag of a text that holds no other before it. -/
theorem first?_write {kind : Kind} {content lead : List Char} (h : Writable kind content)
    (hnone : Text.cut? openMark lead = none) (hlead : EndsPlain lead) (t : List Char) :
    first? (lead ++ (write kind content ++ t)) =
      .ok (some ⟨kind, lead, content, t, write kind content⟩) := by
  have hwrite : write kind content ++ t =
      openMark ++ (kind.sign ++ (content ++ (closeMark ++ t))) := by
    simp [write]
  have hcut : Text.cut? openMark (write kind content ++ t) =
      some ([], kind.sign ++ (content ++ (closeMark ++ t))) := by
    rw [hwrite]
    exact Text.cut?_append_of_not_mem (s := []) (List.not_mem_nil) _
  refine first?_eq_some_iff.2 ⟨lead, _, ?_, ofCut_write h hlead t⟩
  rw [cut?_openMark_append hnone fun c hc => (hlead c hc).1, hcut]
  simp

/-- A text that starts with a written tag has it as its first tag. -/
theorem first?_write_append {kind : Kind} {content : List Char} (h : Writable kind content)
    (t : List Char) :
    first? (write kind content ++ t) = .ok (some ⟨kind, [], content, t, write kind content⟩) := by
  have hempty : EndsPlain [] := fun c hc => nomatch hc
  exact first?_write h rfl hempty t

end Tag

/-! ## Templates put together -/

/-- The tag that opens a section, as it is written. -/
def Opening.ofContent (content : List Char) : Opening :=
  ⟨Event.sectionName content, Event.sectionArgs content, Tag.write .opening content⟩

/-- What stands between the two branches of a section. -/
def Tag.elseContent : List Char := ['e', 'l', 's', 'e']

theorem Tag.writable_elseContent : Tag.Writable .expression elseContent :=
  .of_closable (by decide) (.of_not_mem (by decide) (by decide)) (by decide) fun _ c hc => by
    cases hc
    decide

namespace Event

/-- The events of some tags and of the text before each of them. -/
def rowOfTags (tags : List Tag) : List Located :=
  tags.flatMap fun tag => rowOfText tag.before ++ rowOfTag tag

theorem row_eq (tags : List Tag) (rest : List Char) :
    row tags rest = rowOfTags tags ++ rowOfText rest := rfl

/-- What a written tag stands for. -/
def rowOfWritten (kind : Tag.Kind) (content : List Char) : List Located :=
  rowOfTag ⟨kind, [], content, [], Tag.write kind content⟩

theorem rowOfWritten_opening (content : List Char) :
    rowOfWritten .opening content =
      [⟨.opening (sectionName content) (sectionArgs content), Tag.write .opening content⟩] := by
  rw [rowOfWritten, rowOfTag, List.span_eq_takeWhile_dropWhile]
  rfl

/-- The tags of the text all scan, and these are its events. -/
def Reads (s : List Char) (row : List Located) : Prop :=
  ∃ rest, (Tag.scan s).2 = .ok rest ∧ Event.row (Tag.scan s).1 rest = row

namespace Reads

variable {s t : List Char} {es fs : List Located}

theorem nil : Reads [] [] := by
  have hscan : Tag.scan [] = ([], .ok []) := Tag.scan_of_none rfl
  refine ⟨[], ?_, ?_⟩ <;> rw [hscan]
  rfl

/-- The events of a text are those of its first tag and of the text after it. -/
theorem cons {tag : Tag} (h : Tag.first? s = .ok (some tag)) (ht : Reads tag.after fs) :
    Reads s (rowOfText tag.before ++ (rowOfTag tag ++ fs)) := by
  obtain ⟨rest, hrest, rfl⟩ := ht
  refine ⟨rest, ?_, ?_⟩ <;> rw [Tag.scan_of_some h]
  · exact hrest
  · simp [row]

/-- The tags of a text keep their events when another text follows, and what was left over
is read with it. -/
theorem append_of_scan {left : List Char}
    (hleft : (Tag.scan s).2 = .ok left) (hseam : Tag.Seamless s t) (h : Reads (left ++ t) es) :
    Reads (s ++ t) (rowOfTags (Tag.scan s).1 ++ es) := by
  obtain ⟨rest, hrest, rfl⟩ := h
  refine ⟨rest, ?_, ?_⟩ <;> rw [Tag.scan_append hleft hseam]
  · exact hrest
  · rw [row_eq, row_eq, ← List.append_assoc, rowOfTags, List.flatMap_append, List.flatMap_map]
    rfl

/-- The events of two texts with a tag between them are those of the texts and of the
tag in a row. -/
theorem append_tag (hs : Reads s es) (hend : Tag.EndsPlain s) {kind : Tag.Kind}
    {content : List Char} (hw : Tag.Writable kind content) (ht : Reads t fs) :
    Reads (s ++ (Tag.write kind content ++ t)) (es ++ (rowOfWritten kind content ++ fs)) := by
  obtain ⟨rest, hrest, rfl⟩ := hs
  obtain ⟨hsuffix, hnone⟩ := Tag.rest_of_scan hrest
  have hseam : Tag.Seamless s (Tag.write kind content ++ t) := .inr (by rintro c ⟨⟩; decide)
  have hfirst := Tag.first?_write hw hnone (hend.of_suffix hsuffix) t
  have hall := append_of_scan hrest hseam (cons hfirst ht)
  rwa [row_eq, List.append_assoc]

/-- A tag that starts a text gives its event. -/
theorem tag {kind : Tag.Kind} {content : List Char} (hw : Tag.Writable kind content)
    (ht : Reads t fs) : Reads (Tag.write kind content ++ t) (rowOfWritten kind content ++ fs) :=
  cons (Tag.first?_write_append hw t) ht

section

variable {r content name : List Char} {trees elseTrees : List Tree}

/-- What follows the tag that opens a section starts with the trees of its body and the tag
that closes it, and all of it is one tree. -/
theorem block (hopen : Tag.Writable .opening content)
    (hname : Text.trim name = sectionName content)
    (h : Reads r (Tree.eventsAll trees ++ (rowOfWritten .closing name ++ fs))) :
    Reads (Tag.write .opening content ++ r)
      ((Tree.block (.ofContent content) trees).events ++ fs) := by
  have hall := tag hopen h
  rw [rowOfWritten_opening, rowOfWritten, rowOfTag, hname] at hall
  simpa [Tree.events, Opening.ofContent] using hall

theorem blockElse (hopen : Tag.Writable .opening content)
    (hname : Text.trim name = sectionName content)
    (h : Reads r (Tree.eventsAll trees ++ (rowOfWritten .expression Tag.elseContent ++
      (Tree.eventsAll elseTrees ++ (rowOfWritten .closing name ++ fs))))) :
    Reads (Tag.write .opening content ++ r)
      ((Tree.blockElse (.ofContent content) trees elseTrees).events ++ fs) := by
  have hall := tag hopen h
  have hrow : rowOfWritten .expression Tag.elseContent = [⟨.otherwise, []⟩] := by rfl
  rw [rowOfWritten_opening, hrow, rowOfWritten, rowOfTag, hname] at hall
  simpa [Tree.events, Opening.ofContent] using hall

end

/-- A template has the events of its trees. -/
theorem of_parse {trees : List Tree} (h : Tree.parse s = .ok trees) :
    Reads s (Tree.eventsAll trees) := by
  obtain ⟨rest, hrest, hevents⟩ := Tree.eventsAll_of_parse h
  exact ⟨rest, hrest, by rw [hevents, map_kept_scan]⟩

/-- The trees of a text are those with its events. -/
theorem parse_iff (h : Reads s es) {trees : List Tree} :
    Tree.parse s = .ok trees ↔ Tree.eventsAll trees = es := by
  obtain ⟨rest, hrest, rfl⟩ := h
  exact Tree.parse_eq_ok_iff hrest

end Reads

end Event

/-- The section around a template is one tree with the template's trees in it. -/
theorem Tree.parse_section {s : List Char} {trees : List Tree} (h : Tree.parse s = .ok trees)
    (hend : Tag.EndsPlain s) {content name : List Char} (hopen : Tag.Writable .opening content)
    (hclose : Tag.Writable .closing name) (hname : Text.trim name = Event.sectionName content) :
    Tree.parse (Tag.write .opening content ++ (s ++ Tag.write .closing name)) =
      .ok [.block (.ofContent content) trees] := by
  have hbody := (Event.Reads.of_parse h).append_tag hend hclose .nil
  have hall := Event.Reads.block hopen hname hbody
  rw [List.append_nil] at hall
  exact hall.parse_iff.2 rfl

/-- The section around two templates with an else between them is one tree with the trees
of both. -/
theorem Tree.parse_sectionElse {s t : List Char} {trees elseTrees : List Tree}
    (hs : Tree.parse s = .ok trees) (hends : Tag.EndsPlain s) (ht : Tree.parse t = .ok elseTrees)
    (hendt : Tag.EndsPlain t) {content name : List Char} (hopen : Tag.Writable .opening content)
    (hclose : Tag.Writable .closing name) (hname : Text.trim name = Event.sectionName content) :
    Tree.parse (Tag.write .opening content ++
        (s ++ (Tag.write .expression Tag.elseContent ++ (t ++ Tag.write .closing name)))) =
      .ok [.blockElse (.ofContent content) trees elseTrees] := by
  have helse := (Event.Reads.of_parse ht).append_tag hendt hclose .nil
  have hbody := (Event.Reads.of_parse hs).append_tag hends Tag.writable_elseContent helse
  have hall := Event.Reads.blockElse hopen hname hbody
  rw [List.append_nil] at hall
  exact hall.parse_iff.2 rfl

/-- A tag that includes a template is one tree. -/
theorem Tree.parse_inclusion {content : List Char} (h : Tag.Writable .inclusion content) :
    Tree.parse (Tag.write .inclusion content) =
      .ok [.inclusion content (Tag.write .inclusion content)] := by
  have hall := Event.Reads.tag h .nil
  rw [List.append_nil] at hall
  rw [hall.parse_iff]
  rfl

end SqlTemplates
