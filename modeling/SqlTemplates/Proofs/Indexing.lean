import Mathlib
import SqlTemplates.Store.Directory
import SqlTemplates.Store.Embedding

/-!
# Indexing a tree of template files

A walk lists every file of a tree once (`FileTree.nodup_walk`).  The template files among
them get dot paths one after the other, up to the first that no dot path addresses
(`TemplateFile.named`).  Whether names are read strictly or loosely makes no difference
(`TemplateFile.dotPath_loose`), since a name that is shown as a segment is a text.

Nothing of a path is lost in its dot path: the segments can be read off again, and the last
of them only lacks the extension.  So different files have different dot paths
(`TemplateFile.nodup_names`).
-/

namespace SqlTemplates

/-- A table with different keys gives each key its own value. -/
theorem lookup_eq_some_iff_mem {κ α : Type} [BEq κ] [LawfulBEq κ] {rows : List (κ × α)}
    (h : (rows.map Prod.fst).Nodup) {key : κ} {value : α} :
    rows.lookup key = some value ↔ (key, value) ∈ rows := by
  induction rows with
  | nil => simp
  | cons row rows ih =>
      obtain ⟨first, other⟩ := row
      obtain ⟨hfirst, hrest⟩ := List.nodup_cons.1 h
      rw [List.lookup_cons, List.mem_cons]
      by_cases heq : key = first
      · subst heq
        have hnot : (key, value) ∉ rows := fun hm => hfirst (List.mem_map.2 ⟨_, hm, rfl⟩)
        simp [hnot, eq_comm]
      · have hne : (key == first) = false := by simpa using heq
        simp [hne, heq, ih hrest]

/-! ## Walking -/

namespace FileTree

/-- Inserting an item adds it somewhere. -/
theorem insertByName_perm {α : Type} (item : FileName × α) (items : List (FileName × α)) :
    (insertByName item items).Perm (item :: items) := by
  induction items with
  | nil => exact .refl _
  | cons other rest ih =>
      rw [insertByName]
      split
      · exact .refl _
      · exact (ih.cons other).trans (.swap item other rest)

/-- A walk through a directory enters every entry once. -/
theorem walkEntries_perm (entries : List (FileName × FileTree)) :
    (walkEntries entries).Perm (entries.map fun entry => (entry.1, entry.2.walk)) := by
  induction entries with
  | nil => exact .refl _
  | cons entry rest ih =>
      rw [walkEntries]
      exact (insertByName_perm _ _).trans (ih.cons _)

/-- The paths below a directory start with the names of its entries. -/
theorem map_fst_walk_dir (entries : List (FileName × FileTree)) :
    (walk (.dir entries)).map Prod.fst =
      (walkEntries entries).flatMap fun entry =>
        (entry.2.map Prod.fst).map (entry.1 :: ·) := by
  rw [walk, List.map_flatMap]
  refine congrArg (List.flatMap · (walkEntries entries)) (funext fun entry => ?_)
  rw [List.map_map, List.map_map]
  rfl

theorem ne_nil_of_mem_walk_dir {entries : List (FileName × FileTree)} {path : List FileName}
    (h : path ∈ (walk (.dir entries)).map Prod.fst) : path ≠ [] := by
  rw [map_fst_walk_dir] at h
  obtain ⟨entry, -, hpath⟩ := List.mem_flatMap.1 h
  obtain ⟨rest, -, rfl⟩ := List.mem_map.1 hpath
  exact List.cons_ne_nil _ _

mutual

/-- No directory of the tree has two entries of one name. -/
def distinct : FileTree → Bool
  | .file _ => true
  | .dir entries => decide (entries.map Prod.fst).Nodup && distinctAll entries

/-- No directory of the entries has two entries of one name. -/
def distinctAll : List (FileName × FileTree) → Bool
  | [] => true
  | (_, tree) :: rest => tree.distinct && distinctAll rest

end

mutual

/-- A walk lists every path once. -/
theorem nodup_walk : ∀ {tree : FileTree}, tree.distinct = true → (tree.walk.map Prod.fst).Nodup
  | .file _, _ => by
      rw [walk]
      exact List.nodup_singleton _
  | .dir entries, h => by
      rw [distinct, Bool.and_eq_true, decide_eq_true_eq] at h
      have hperm := (walkEntries_perm entries).flatMap_right
        fun entry => (entry.2.map Prod.fst).map (entry.1 :: ·)
      rw [map_fst_walk_dir, hperm.nodup_iff, List.nodup_flatMap]
      constructor
      · intro entry hentry
        obtain ⟨⟨name, tree⟩, hmem, rfl⟩ := List.mem_map.1 hentry
        exact (nodup_walkAll h.2 (name, tree) hmem).map (List.cons_injective)
      · -- Paths in different entries differ in their first name.
        have hnames : entries.Pairwise fun a b => a.1 ≠ b.1 := List.pairwise_map.1 h.1
        refine List.pairwise_map.2 (hnames.imp fun {a b} hne => ?_)
        intro path ha hb
        obtain ⟨_, -, rfl⟩ := List.mem_map.1 ha
        obtain ⟨_, -, heq⟩ := List.mem_map.1 hb
        exact hne (List.cons.inj heq).1.symm

theorem nodup_walkAll : ∀ {entries : List (FileName × FileTree)}, distinctAll entries = true →
    ∀ entry ∈ entries, (entry.2.walk.map Prod.fst).Nodup
  | [], _ => fun _ h => nomatch h
  | (_, tree) :: rest, h => by
      rw [distinctAll, Bool.and_eq_true] at h
      exact List.forall_mem_cons.2 ⟨nodup_walk h.1, nodup_walkAll h.2⟩

end

end FileTree

namespace TemplateFile

open FileName (ofText)

/-! ## Segments -/

/-- A name read from its end: the extension, the dot and what stands before it. -/
theorem eq_extended_iff {name before extension : FileName} :
    name = before ++ ("." : FileName) ++ extension ↔
      name.parts.reverse = extension.parts.reverse ++ .char '.' :: before.parts.reverse := by
  obtain ⟨parts⟩ := name
  show FileName.mk parts = ⟨before.parts ++ [.char '.'] ++ extension.parts⟩ ↔ _
  rw [FileName.mk.injEq, ← List.reverse_inj]
  simp

/-- A name with an extension is the rest of it, a dot and the extension.  The rest is not
empty, and the extension holds no other dot. -/
theorem splitExtension?_eq_some_iff {name before extension : FileName} :
    splitExtension? name = some (before, extension) ↔
      name = before ++ ("." : FileName) ++ extension ∧ before.parts ≠ [] ∧
        .char '.' ∉ extension.parts := by
  rw [eq_extended_iff]
  constructor
  · intro h
    have hall := List.takeWhile_append_dropWhile (p := fun part => decide (part ≠ .char '.'))
      (l := name.parts.reverse)
    unfold splitExtension? at h
    dsimp only at h
    split at h
    · next dot rest heq =>
        have hdot : dot = .char '.' := by
          have hhead := List.head?_dropWhile_not (fun part => decide (part ≠ .char '.'))
            name.parts.reverse
          rw [heq] at hhead
          simpa using hhead
        split at h
        · cases h
        · next hrest =>
            cases h
            rw [heq, hdot] at hall
            refine ⟨by simpa using hall.symm, by simpa using hrest, fun hm => ?_⟩
            have hne := List.mem_takeWhile_imp (List.mem_reverse.1 hm)
            simp at hne
    · cases h
  · rintro ⟨hname, hbefore, hextension⟩
    have hall : ∀ part ∈ extension.parts.reverse,
        decide (part ≠ FileName.Part.char '.') = true := by
      intro part hm
      rw [decide_eq_true_eq]
      rintro rfl
      exact hextension (List.mem_reverse.1 hm)
    rw [splitExtension?]
    simp only [hname, List.takeWhile_append_of_pos hall, List.dropWhile_append_of_pos hall]
    simp [hbefore]

theorem dot_mem_ofText_iff {s : List Char} :
    FileName.Part.char '.' ∈ (ofText s).parts ↔ '.' ∈ s := by
  simp [ofText]

/-- A name has the extension that follows its last dot, unless it starts with this dot. -/
theorem hasExtension_iff {extension : String} {name : FileName} :
    hasExtension extension name = true ↔
      ∃ before : FileName, name = before ++ ("." : FileName) ++ (extension : FileName) ∧
        before.parts ≠ [] ∧ '.' ∉ extension.toList := by
  rw [hasExtension, decide_eq_true_eq, Option.map_eq_some_iff]
  constructor
  · rintro ⟨⟨before, _⟩, hsplit, rfl⟩
    obtain ⟨hname, hbefore, hextension⟩ := splitExtension?_eq_some_iff.1 hsplit
    exact ⟨before, hname, hbefore, dot_mem_ofText_iff.not.1 hextension⟩
  · rintro ⟨before, hname, hbefore, hextension⟩
    exact ⟨(before, _), splitExtension?_eq_some_iff.2
      ⟨hname, hbefore, dot_mem_ofText_iff.not.2 hextension⟩, rfl⟩

/-- The text of a segment is what the segment is, and can be a part of a dot path. -/
theorem segmentText?_text?_eq_some_iff {name : FileName} {text : List Char} :
    segmentText? FileName.text? name = some text ↔
      name = ofText text ∧ Name.isSegment text = true := by
  rw [segmentText?, Option.filter_eq_some_iff, FileName.text?_eq_some_iff]

theorem replacement_not_mem_of_isSegment {text : List Char} (h : Name.isSegment text = true) :
    '\uFFFD' ∉ text := by
  intro hm
  rw [Name.isSegment, Bool.and_eq_true, List.all_eq_true] at h
  exact absurd (h.2 _ hm) (by decide)

/-- A name that is shown as a segment is a text, so it does not matter how segments are
read. -/
theorem segmentText?_loose (name : FileName) :
    segmentText? FileName.loose name = segmentText? FileName.text? name := by
  refine Option.ext fun text => ?_
  rw [segmentText?_text?_eq_some_iff, segmentText?, Option.filter_eq_some_iff, FileName.loose,
    Option.some_inj]
  constructor
  · rintro ⟨rfl, hsegment⟩
    exact ⟨FileName.eq_ofText_shown (replacement_not_mem_of_isSegment hsegment), hsegment⟩
  · rintro ⟨rfl, hsegment⟩
    exact ⟨FileName.shown_ofText text, hsegment⟩

theorem segmentTexts_loose (names : List FileName) :
    segmentTexts FileName.loose names = segmentTexts FileName.text? names := by
  induction names with
  | nil => rfl
  | cons name names ih => rw [segmentTexts, segmentTexts, segmentText?_loose, ih]

/-- It does not matter how names are read: a file has the same dot path, or the same segment
that stands against it. -/
theorem dotPath_loose (path : List FileName) :
    dotPath FileName.loose path = dotPath FileName.text? path := by
  rw [dotPath, dotPath, segmentTexts_loose]

theorem segmentTexts_eq_ok {names : List FileName} {texts : List (List Char)}
    (h : segmentTexts FileName.text? names = .ok texts) :
    names = texts.map ofText ∧ texts.all Name.isSegment = true := by
  induction names generalizing texts with
  | nil =>
      cases h
      exact ⟨rfl, rfl⟩
  | cons name names ih =>
      rw [segmentTexts] at h
      split at h
      · cases h
      · next text htext =>
          obtain ⟨hname, hsegment⟩ := segmentText?_text?_eq_some_iff.1 htext
          cases hrest : segmentTexts FileName.text? names with
          | error e =>
              rw [hrest] at h
              cases h
          | ok rest =>
              rw [hrest] at h
              cases h
              obtain ⟨hnames, hall⟩ := ih hrest
              rw [List.map_cons, List.all_cons, hsegment, hall, ← hname, ← hnames]
              exact ⟨rfl, rfl⟩

theorem segmentTexts_map_ofText {texts : List (List Char)} (h : texts.all Name.isSegment = true) :
    segmentTexts FileName.text? (texts.map ofText) = .ok texts := by
  induction texts with
  | nil => rfl
  | cons text texts ih =>
      rw [List.all_cons, Bool.and_eq_true] at h
      rw [List.map_cons, segmentTexts, segmentText?_text?_eq_some_iff.2 ⟨rfl, h.1⟩]
      dsimp only
      rw [ih h.2]
      rfl

/-- The segments are texts that can be parts of a dot path, and this is their dot path. -/
def Spells (segments : List FileName) (name : String) : Prop :=
  ∃ texts, segments = texts.map ofText ∧ texts.all Name.isSegment = true ∧
    name = String.ofList (Name.joinDots texts)

/-- A segment that cannot be a part of a dot path keeps the others from spelling one. -/
theorem not_spells_of_mem {segments : List FileName} {segment : FileName} (hm : segment ∈ segments)
    (h : segmentText? FileName.text? segment = none) (name : String) : ¬ Spells segments name := by
  rintro ⟨texts, rfl, hall, -⟩
  obtain ⟨text, htext, rfl⟩ := List.mem_map.1 hm
  have hsome := segmentText?_text?_eq_some_iff.2 ⟨rfl, List.all_eq_true.1 hall text htext⟩
  rw [h] at hsome
  cases hsome

/-- A file has the dot path that its segments spell, if they spell one. -/
theorem dotPath_eq_ok_iff {path : List FileName} {name : String} :
    dotPath FileName.text? path = .ok name ↔ Spells (segments path) name := by
  constructor
  · intro h
    rw [dotPath] at h
    cases htexts : segmentTexts FileName.text? (segments path) with
    | error segment =>
        rw [htexts] at h
        cases h
    | ok texts =>
        rw [htexts] at h
        cases h
        obtain ⟨hsegments, hall⟩ := segmentTexts_eq_ok htexts
        exact ⟨texts, hsegments, hall, rfl⟩
  · rintro ⟨texts, hsegments, hall, rfl⟩
    rw [dotPath, hsegments, segmentTexts_map_ofText hall]
    rfl

theorem segments_concat (path : List FileName) (name : FileName) :
    segments (path ++ [name]) = path ++ [stem name] := by
  induction path with
  | nil => rfl
  | cons first path ih =>
      rw [List.cons_append, segments, ih, List.cons_append]
      exact List.append_ne_nil_of_right_ne_nil path (List.cons_ne_nil _ _)

/-- A template file has the dot path that its directories and its name before the extension
spell. -/
theorem dotPath_extended_eq_ok_iff {extension : String} {before : FileName}
    (hbefore : before.parts ≠ []) (hextension : '.' ∉ extension.toList) {dirs : List FileName}
    {name : String} :
    dotPath FileName.text? (dirs ++ [before ++ ("." : FileName) ++ (extension : FileName)]) =
      .ok name ↔ Spells (dirs ++ [before]) name := by
  have hsplit : splitExtension? (before ++ ("." : FileName) ++ (extension : FileName)) =
      some (before, (extension : FileName)) :=
    splitExtension?_eq_some_iff.2 ⟨rfl, hbefore, dot_mem_ofText_iff.not.2 hextension⟩
  rw [dotPath_eq_ok_iff, segments_concat, stem, hsplit]
  dsimp only
  split
  · next hdot =>
      -- Neither one dot nor two are a segment.
      subst hdot
      exact iff_of_false
        (not_spells_of_mem (List.mem_append_right dirs (List.mem_singleton_self _)) rfl name)
        (not_spells_of_mem (List.mem_append_right dirs (List.mem_singleton_self _)) rfl name)
  · exact Iff.rfl

/-! ## Dot paths tell files apart -/

/-- Different rows of segments spell different dot paths. -/
theorem Spells.unique {segments segments' : List FileName} {name : String}
    (h : Spells segments name) (h' : Spells segments' name) (hne : segments ≠ [])
    (hne' : segments' ≠ []) : segments = segments' := by
  obtain ⟨texts, rfl, hall, rfl⟩ := h
  obtain ⟨texts', rfl, hall', hname⟩ := h'
  rw [Name.joinDots_injective hall hall' (String.ofList_inj.1 hname) (by simpa using hne)
    (by simpa using hne')]

/-- A file with the extension stands for itself: it is where its dot path leads. -/
theorem eq_of_dotPath {extension dotted : String} {dirs dirs' : List FileName}
    {name name' : FileName} (hext : hasExtension extension name = true)
    (hext' : hasExtension extension name' = true)
    (h : dotPath FileName.text? (dirs ++ [name]) = .ok dotted)
    (h' : dotPath FileName.text? (dirs' ++ [name']) = .ok dotted) :
    dirs ++ [name] = dirs' ++ [name'] := by
  obtain ⟨before, rfl, hbefore, hextension⟩ := hasExtension_iff.1 hext
  obtain ⟨before', rfl, hbefore', -⟩ := hasExtension_iff.1 hext'
  rw [dotPath_extended_eq_ok_iff hbefore hextension] at h
  rw [dotPath_extended_eq_ok_iff hbefore' hextension] at h'
  obtain ⟨rfl, rfl⟩ := List.append_singleton_inj.1 (h.unique h'
    (List.append_ne_nil_of_right_ne_nil dirs (List.cons_ne_nil _ _))
    (List.append_ne_nil_of_right_ne_nil dirs' (List.cons_ne_nil _ _)))
  rfl

/-! ## Naming all files -/

/-- The template files with their dot paths, in the order of their paths, or the first file
that no dot path addresses, with the segment that stands against it. -/
def named : List (List FileName) →
    Except (List FileName × FileName) (List (String × List FileName))
  | [] => .ok []
  | path :: paths =>
      match dotPath FileName.text? path with
      | .error segment => .error (path, segment)
      | .ok name => (named paths).map ((name, path) :: ·)

theorem named_eq_ok {paths : List (List FileName)} {entries : List (String × List FileName)}
    (h : named paths = .ok entries) :
    entries.map Prod.snd = paths ∧
      ∀ entry ∈ entries, dotPath FileName.text? entry.2 = .ok entry.1 := by
  induction paths generalizing entries with
  | nil =>
      cases h
      exact ⟨rfl, List.forall_mem_nil _⟩
  | cons path paths ih =>
      rw [named] at h
      split at h
      · cases h
      · next name hname =>
          cases hrest : named paths with
          | error fault =>
              rw [hrest] at h
              cases h
          | ok rest =>
              rw [hrest] at h
              cases h
              obtain ⟨hpaths, hnames⟩ := ih hrest
              exact ⟨congrArg (path :: ·) hpaths, List.forall_mem_cons.2 ⟨hname, hnames⟩⟩

/-- Naming fails at the first file that no dot path addresses. -/
theorem named_eq_error {paths : List (List FileName)} {path : List FileName}
    {segment : FileName} (h : named paths = .error (path, segment)) :
    ∃ before after, paths = before ++ path :: after ∧
      (∀ earlier ∈ before, ∃ name, dotPath FileName.text? earlier = .ok name) ∧
      dotPath FileName.text? path = .error segment := by
  induction paths with
  | nil => cases h
  | cons first paths ih =>
      rw [named] at h
      split at h
      · next fault hfault =>
          cases h
          exact ⟨[], paths, rfl, List.forall_mem_nil _, hfault⟩
      · next name hname =>
          cases hrest : named paths with
          | ok rest =>
              rw [hrest] at h
              cases h
          | error fault =>
              rw [hrest] at h
              cases h
              obtain ⟨before, after, rfl, hbefore, hpath⟩ := ih hrest
              exact ⟨first :: before, after, rfl,
                List.forall_mem_cons.2 ⟨⟨name, hname⟩, hbefore⟩, hpath⟩

/-! ## Different files have different dot paths -/

/-- The name of a directory itself does not matter to the files below it. -/
theorem paths_dir (rootName rootName' : FileName) (extension : String)
    (entries : List (FileName × FileTree)) :
    paths rootName extension (.dir entries) = paths rootName' extension (.dir entries) := by
  refine List.filter_congr fun path hm => ?_
  obtain ⟨dirs, name, rfl⟩ : ∃ dirs name, path = dirs ++ [name] :=
    ⟨_, _, (List.dropLast_append_getLast (FileTree.ne_nil_of_mem_walk_dir hm)).symm⟩
  rw [List.getLastD_concat, List.getLastD_concat]

theorem exists_of_mem_paths {rootName : FileName} {extension : String}
    {entries : List (FileName × FileTree)} {path : List FileName}
    (h : path ∈ paths rootName extension (.dir entries)) :
    ∃ dirs name, path = dirs ++ [name] ∧ hasExtension extension name = true := by
  obtain ⟨hwalk, hext⟩ := List.mem_filter.1 h
  obtain ⟨dirs, name, rfl⟩ : ∃ dirs name, path = dirs ++ [name] :=
    ⟨_, _, (List.dropLast_append_getLast (FileTree.ne_nil_of_mem_walk_dir hwalk)).symm⟩
  rw [List.getLastD_concat] at hext
  exact ⟨dirs, name, rfl, hext⟩

/-- The dot paths of the template files of a tree are all different. -/
theorem nodup_names {rootName : FileName} {extension : String}
    {dir : List (FileName × FileTree)} (hdistinct : (FileTree.dir dir).distinct = true)
    {entries : List (String × List FileName)}
    (h : named (paths rootName extension (.dir dir)) = .ok entries) :
    (entries.map Prod.fst).Nodup := by
  obtain ⟨hpaths, hnames⟩ := named_eq_ok h
  have hnodup : (entries.map Prod.snd).Nodup := by
    rw [hpaths]
    exact (FileTree.nodup_walk hdistinct).filter _
  have hfile : ∀ entry ∈ entries, ∃ dirs name, entry.2 = dirs ++ [name] ∧
      hasExtension extension name = true := fun entry hm =>
    exists_of_mem_paths (hpaths ▸ List.mem_map_of_mem hm)
  refine List.Nodup.map_on (fun entry hm other hm' heq => ?_) hnodup.of_map
  obtain ⟨dirs, name, hentry, hext⟩ := hfile entry hm
  obtain ⟨dirs', name', hother, hext'⟩ := hfile other hm'
  have hdotted := hnames entry hm
  have hdotted' := hnames other hm'
  rw [hentry] at hdotted
  rw [hother, ← heq] at hdotted'
  refine Prod.ext heq ?_
  rw [hentry, hother, eq_of_dotPath hext hext' hdotted hdotted']

end TemplateFile

end SqlTemplates
