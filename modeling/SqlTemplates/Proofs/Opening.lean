import SqlTemplates.Proofs.Agreement
import SqlTemplates.Proofs.WalkOrder

/-!
# Opening a directory

What opening a directory comes to can be read off its files.  A template file stands at a
path for its segments, the names of its directories and its own name without the extension
(`TemplateFile.At`).  If all segments of all template files can be parts of dot paths, the
directory opens, and its index leads from the dot path of every template file to this file and
knows no other dot paths.  If not, opening names the first file that a segment stands against.
`Directory.openAt_dir` says both.
-/

namespace SqlTemplates

namespace TemplateFile

open FileName (ofText)

/-! ## Template files -/

/-- There is a template file at the path, and these are its segments: its directories and
what stands in its name before the last dot.  The extension stands after it. -/
inductive At (tree : FileTree) (extension : String) : List FileName → List FileName → Prop
  | file {dirs : List FileName} {before : FileName} {content : ByteArray} :
      before.parts ≠ [] → '.' ∉ extension.toList →
      tree.find? (dirs ++ [before ++ ("." : FileName) ++ (extension : FileName)]) =
        some (.file content) →
      At tree extension (dirs ++ [before ++ ("." : FileName) ++ (extension : FileName)])
        (dirs ++ [before])

variable {extension : String} {entries : List (FileName × FileTree)}

/-- The paths of a tree's template files are where its template files are. -/
theorem mem_paths_iff (rootName : FileName) (h : (FileTree.dir entries).distinct = true)
    {path : List FileName} :
    path ∈ paths rootName extension (.dir entries) ↔
      ∃ segments, At (.dir entries) extension path segments := by
  have hwalk : ∀ path : List FileName, path ∈ (FileTree.dir entries).walk.map Prod.fst ↔
      ∃ content, (FileTree.dir entries).find? path = some (.file content) := fun path => by
    simp only [List.mem_map, Prod.exists, exists_and_right, exists_eq_right,
      FileTree.mem_walk_iff h]
  constructor
  · intro hm
    obtain ⟨dirs, name, rfl, hext⟩ := exists_of_mem_paths hm
    obtain ⟨content, hfind⟩ := (hwalk _).1 (List.mem_filter.1 hm).1
    obtain ⟨before, rfl, hbefore, hdot⟩ := hasExtension_iff.1 hext
    exact ⟨dirs ++ [before], .file hbefore hdot hfind⟩
  · rintro ⟨_, @⟨dirs, before, content, hbefore, hdot, hfind⟩⟩
    refine List.mem_filter.2 ⟨(hwalk _).2 ⟨content, hfind⟩, ?_⟩
    rw [List.getLastD_concat]
    exact hasExtension_iff.2 ⟨before, rfl, hbefore, hdot⟩

theorem At.segments_ne_nil {tree : FileTree} {path segments : List FileName}
    (h : At tree extension path segments) : segments ≠ [] := by
  obtain @⟨dirs, before⟩ := h
  exact List.append_ne_nil_of_right_ne_nil dirs (List.cons_ne_nil before [])

theorem At.dotPath_eq_ok_iff {tree : FileTree} {path segments : List FileName}
    (h : At tree extension path segments) {name : String} :
    dotPath FileName.text? path = .ok name ↔ Spells segments name := by
  obtain ⟨hbefore, hdot, -⟩ := h
  exact dotPath_extended_eq_ok_iff hbefore hdot

/-- No two template files have the same segments. -/
theorem At.path_unique {tree : FileTree} {path path' segments : List FileName}
    (h : At tree extension path segments) (h' : At tree extension path' segments) :
    path = path' := by
  obtain @⟨dirs, before⟩ := h
  generalize hsegments : dirs ++ [before] = segments at h'
  obtain @⟨dirs', before'⟩ := h'
  obtain ⟨rfl, rfl⟩ := List.append_singleton_inj.1 hsegments
  rfl

/-! ## Files that no dot path addresses -/

/-- The name is a text that can be a part of a dot path. -/
def IsSegment (name : FileName) : Prop :=
  ∃ text, name = ofText text ∧ Name.isSegment text = true

/-- Segments spell a dot path if each of them can be a part of one. -/
theorem exists_spells_iff {segments : List FileName} :
    (∃ name, Spells segments name) ↔ ∀ segment ∈ segments, IsSegment segment := by
  constructor
  · rintro ⟨_, texts, rfl, hall, -⟩ segment hm
    obtain ⟨text, htext, rfl⟩ := List.mem_map.1 hm
    exact ⟨text, rfl, List.all_eq_true.1 hall text htext⟩
  · intro h
    choose! text htext using h
    refine ⟨_, segments.map text, ?_, ?_, rfl⟩
    · rw [List.map_map]
      refine (List.map_id segments).symm.trans (List.map_congr_left fun segment hm => ?_)
      exact (htext segment hm).1
    · rw [List.all_map, List.all_eq_true]
      exact fun segment hm => (htext segment hm).2

/-- There is a template file at the path, and one of its segments cannot be a part of a dot
path. -/
def Offends (tree : FileTree) (extension : String) (path : List FileName) : Prop :=
  ∃ segments, At tree extension path segments ∧ ∃ segment ∈ segments, ¬ IsSegment segment

theorem At.offends_iff {tree : FileTree} {path segments : List FileName}
    (h : At tree extension path segments) :
    Offends tree extension path ↔ ∀ name, dotPath FileName.text? path ≠ .ok name := by
  have hspells : (∃ name, dotPath FileName.text? path = .ok name) ↔
      ∀ segment ∈ segments, IsSegment segment := by
    rw [← exists_spells_iff]
    exact exists_congr fun name => h.dotPath_eq_ok_iff
  constructor
  · rintro ⟨segments', h', segment, hm, hnot⟩ name hname
    exact hnot (exists_spells_iff.1 ⟨name, h'.dotPath_eq_ok_iff.1 hname⟩ segment hm)
  · intro hnot
    refine ⟨segments, h, ?_⟩
    by_contra hall
    push Not at hall
    obtain ⟨name, hname⟩ := hspells.2 hall
    exact hnot name hname

/-- The file offends, and none that offends stands before it.  If names are told apart by their
bytes, all others that offend stand after it. -/
structure FirstOffender (tree : FileTree) (extension : String) (path : List FileName) : Prop where
  offends : Offends tree extension path
  first : ∀ other, Offends tree extension other → ¬ FileTree.Precedes other path
  precedes : ∀ other, Offends tree extension other → other ≠ path →
    (∀ a ∈ path, ∀ b ∈ other, a.bytes = b.bytes → a = b) → FileTree.Precedes path other

theorem Offends.exists_content {tree : FileTree} {path : List FileName}
    (h : Offends tree extension path) : ∃ content, tree.find? path = some (.file content) := by
  obtain ⟨_, @⟨_, _, content, _, _, hfind⟩, -⟩ := h
  exact ⟨content, hfind⟩

theorem FirstOffender.of_first {tree : FileTree} {path : List FileName}
    (h : Offends tree extension path)
    (hfirst : ∀ other, Offends tree extension other → ¬ FileTree.Precedes other path) :
    FirstOffender tree extension path where
  offends := h
  first := hfirst
  precedes other hother hne hbytes := by
    obtain ⟨content, hfind⟩ := h.exists_content
    obtain ⟨content', hfind'⟩ := hother.exists_content
    refine (FileTree.precedes_or_precedes hbytes ?_ ?_).resolve_right (hfirst other hother)
    · exact fun hstart => hne (FileTree.eq_of_isPrefix_of_find? hfind hfind' hstart).symm
    · exact fun hstart => hne (FileTree.eq_of_isPrefix_of_find? hfind' hfind hstart)

/-- Naming the files of a tree fails at the first that offends. -/
theorem firstOffender_of_named {rootName : FileName}
    (h : (FileTree.dir entries).distinct = true) {path : List FileName} {segment : FileName}
    (hnamed : named (paths rootName extension (.dir entries)) = .error (path, segment)) :
    FirstOffender (.dir entries) extension path := by
  obtain ⟨before, after, hpaths, hbefore, hpath⟩ := named_eq_error hnamed
  have hmem : ∀ {other : List FileName}, other ∈ before ++ path :: after ↔
      ∃ segments, At (.dir entries) extension other segments := by
    rw [← hpaths]
    exact mem_paths_iff rootName h
  have hordered : (before ++ path :: after).Pairwise fun path later =>
      ¬ FileTree.Precedes later path :=
    hpaths ▸ (FileTree.walk_ordered h).filter _
  refine .of_first ?_ ?_
  · obtain ⟨segments, hat⟩ := hmem.1 (List.mem_append_right before (List.mem_cons_self ..))
    refine hat.offends_iff.2 fun name hname => ?_
    rw [hpath] at hname
    cases hname
  · rintro other ⟨segments, hat, hoffends⟩
    have hnot := hat.offends_iff.1 ⟨segments, hat, hoffends⟩
    rcases List.mem_append.1 (hmem.2 ⟨segments, hat⟩) with hm | hm
    · obtain ⟨name, hname⟩ := hbefore other hm
      exact absurd hname (hnot name)
    · rcases List.mem_cons.1 hm with rfl | hm
      · exact FileTree.not_precedes_self other
      · exact (List.pairwise_cons.1 (List.pairwise_append.1 hordered).2.1).1 other hm

/-- If the files of a tree can be named, each has its name among theirs. -/
theorem At.exists_mem_named {rootName : FileName} {path segments : List FileName}
    (hat : At (.dir entries) extension path segments)
    (h : (FileTree.dir entries).distinct = true) {files : List (String × List FileName)}
    (hnamed : named (paths rootName extension (.dir entries)) = .ok files) :
    ∃ name, (name, path) ∈ files ∧ dotPath FileName.text? path = .ok name := by
  obtain ⟨hpaths, hnames⟩ := named_eq_ok hnamed
  have hmem := (mem_paths_iff rootName h).2 ⟨segments, hat⟩
  rw [← hpaths] at hmem
  obtain ⟨⟨name, _⟩, hfile, rfl⟩ := List.mem_map.1 hmem
  exact ⟨name, hfile, hnames _ hfile⟩

/-- If the files of a tree can be named, none of them offends. -/
theorem not_offends_of_named {rootName : FileName}
    (h : (FileTree.dir entries).distinct = true) {files : List (String × List FileName)}
    (hnamed : named (paths rootName extension (.dir entries)) = .ok files)
    (path : List FileName) : ¬ Offends (.dir entries) extension path := by
  rintro ⟨segments, hat, hoffends⟩
  obtain ⟨name, -, hname⟩ := hat.exists_mem_named h hnamed
  exact hat.offends_iff.1 ⟨segments, hat, hoffends⟩ name hname

/-- The files of a tree are named by the dot paths that their segments spell. -/
theorem mem_named_iff {rootName : FileName} (h : (FileTree.dir entries).distinct = true)
    {files : List (String × List FileName)}
    (hnamed : named (paths rootName extension (.dir entries)) = .ok files) {name : String}
    {path : List FileName} :
    (name, path) ∈ files ↔
      ∃ segments, At (.dir entries) extension path segments ∧ Spells segments name := by
  constructor
  · intro hm
    obtain ⟨hpaths, hnames⟩ := named_eq_ok hnamed
    obtain ⟨segments, hat⟩ := (mem_paths_iff rootName h).1 (hpaths ▸ List.mem_map_of_mem hm)
    exact ⟨segments, hat, hat.dotPath_eq_ok_iff.1 (hnames _ hm)⟩
  · rintro ⟨segments, hat, hspells⟩
    obtain ⟨other, hfile, hother⟩ := hat.exists_mem_named h hnamed
    rw [hat.dotPath_eq_ok_iff.2 hspells] at hother
    cases hother
    exact hfile

end TemplateFile

namespace Directory

open TemplateFile (At Spells IsSegment Offends FirstOffender)

/-- If all segments of the template files below a directory can be parts of dot paths, the
directory opens.  Its index then leads from each dot path that the segments of a template
file spell to this file, holds nothing else, and no two template files spell the same dot
path.  If there is a segment that cannot, opening fails at the first file that has one. -/
theorem openAt_dir (root : String) (rootName : FileName) (extension : String)
    {entries : List (FileName × FileTree)} (h : (FileTree.dir entries).distinct = true) :
    ((∀ path segments, At (.dir entries) extension path segments →
        ∀ segment ∈ segments, IsSegment segment) →
      ∃ index, openAt root rootName extension (some (.dir entries)) =
          .ok { root, index, tree := .dir entries } ∧
        (∀ (name : String) path, index[name]? = some path ↔
          ∃ segments, At (.dir entries) extension path segments ∧ Spells segments name) ∧
        ∀ path segments path' segments' name, At (.dir entries) extension path segments →
          At (.dir entries) extension path' segments' → Spells segments name →
            Spells segments' name → path = path') ∧
      ((∃ path, Offends (.dir entries) extension path) →
        ∃ path, FirstOffender (.dir entries) extension path ∧
          openAt root rootName extension (some (.dir entries)) =
            .error (.invalidTemplatePath (FileTree.showPath root path))) := by
  rw [openAt_eq]
  cases hnamed : TemplateFile.named (TemplateFile.paths rootName extension (.dir entries)) with
  | error fault =>
      obtain ⟨path, segment⟩ := fault
      have hfirst := TemplateFile.firstOffender_of_named h hnamed
      constructor
      · intro hall
        obtain ⟨segments, hat, segment, hm, hnot⟩ := hfirst.offends
        exact absurd (hall path segments hat segment hm) hnot
      · exact fun _ => ⟨path, hfirst, rfl⟩
  | ok files =>
      constructor
      · refine fun _ => ⟨insertAll ∅ files, rfl, fun name path => ?_, ?_⟩
        · rw [getElem?_insertAll (TemplateFile.nodup_names h hnamed),
            ← TemplateFile.mem_named_iff h hnamed]
          simp
        · intro path segments path' segments' name hat hat' hspells hspells'
          have hsame := hspells.unique hspells' hat.segments_ne_nil hat'.segments_ne_nil
          exact hat.path_unique (hsame ▸ hat')
      · rintro ⟨path, hoffends⟩
        exact absurd hoffends (TemplateFile.not_offends_of_named h hnamed path)

/-- A directory with a template in a directory, a hidden file and a directory with a dot in its
name opens.  One with two files whose names keep a dot does not, for the first of them in the
order of names, which is not the one that the tree holds first. -/
theorem openAt_dir_users :
    ∃ users dots : List (FileName × FileTree),
      (FileTree.dir users).distinct = true ∧ (FileTree.dir dots).distinct = true ∧
      (∃ index, openAt "/q" "q" "sql" (some (.dir users)) =
          .ok { root := "/q", index, tree := .dir users } ∧
        index["users.list"]? = some [("users" : FileName), ("list.sql" : FileName)] ∧
        index[".sql"]? = none) ∧
      (∃ path, FirstOffender (.dir dots) "sql" path ∧
        FileTree.showPath "/q" path = "/q/a..sql") ∧
      openAt "/q" "q" "sql" (some (.dir dots)) = .error (.invalidTemplatePath "/q/a..sql") := by
  let users : List (FileName × FileTree) :=
    [("users", .dir [("list.sql", .file "SELECT 1".toUTF8)]), (".sql", .file "x".toUTF8),
      ("v1.0", .dir [("notes.txt", .file "x".toUTF8)])]
  let dots : List (FileName × FileTree) :=
    [("b", .dir [("..sql", .file "x".toUTF8)]), ("a..sql", .file "x".toUTF8)]
  have husers : (FileTree.dir users).distinct = true := by cbv
  have hdots : (FileTree.dir dots).distinct = true := by cbv
  have hnamed : TemplateFile.named (TemplateFile.paths "q" "sql" (.dir users)) =
      .ok [("users.list", ["users", "list.sql"])] := by cbv
  have hfault : TemplateFile.named (TemplateFile.paths "q" "sql" (.dir dots)) =
      .error (["a..sql"], "a.") := by cbv
  have hopen : openAt "/q" "q" "sql" (some (.dir dots)) =
      .error (.invalidTemplatePath "/q/a..sql") := by
    rw [openAt_eq, hfault]
    rfl
  have hall : ∀ path segments, At (.dir users) "sql" path segments →
      ∀ segment ∈ segments, IsSegment segment := by
    intro path segments hat segment hm
    by_contra hnot
    exact TemplateFile.not_offends_of_named husers hnamed path ⟨segments, hat, segment, hm, hnot⟩
  obtain ⟨index, hindexed, hindex, -⟩ := (openAt_dir "/q" "q" "sql" husers).1 hall
  obtain ⟨path, hfirst, herror⟩ := (openAt_dir "/q" "q" "sql" hdots).2
    ⟨_, (TemplateFile.firstOffender_of_named hdots hfault).offends⟩
  simp only [← TemplateFile.mem_named_iff husers hnamed] at hindex
  rw [hopen] at herror
  have hlisted := (hindex _ _).2 (List.mem_singleton_self _)
  refine ⟨users, dots, husers, hdots, ⟨index, hindexed, hlisted, ?_⟩,
    ⟨path, hfirst, by simpa using herror.symm⟩, hopen⟩
  refine Option.eq_none_iff_forall_ne_some.2 fun path hsome => ?_
  simpa using (hindex ".sql" path).1 hsome

end Directory

end SqlTemplates
