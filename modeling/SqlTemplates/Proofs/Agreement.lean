import SqlTemplates.Proofs.Indexing

/-!
# A directory and its embedded copy

Opening a directory and embedding it name the files of a tree each in its own way: one reads
names strictly and fills an index, the other reads them loosely and lists rows.  Both come to
what `TemplateFile.named` says (`Directory.foldlM_addPath`, `Embedding.mapM_row`), so they
fail at the same file, and the rows are the entries of the index
(`Embedding.Lists`).

A look-up in a table stops at the first row of a path and a look-up in an index finds the
last file that was added.  Both find the same file since no path occurs twice.  An engine asks
a store for nothing but texts, so it cannot tell two stores that answer alike
(`Engine.load_congr`).
-/

namespace SqlTemplates

/-! ## The index and the rows -/

namespace Directory

/-- Adds files to an index, each under its dot path. -/
def insertAll (index : Std.ExtTreeMap String (List FileName))
    (entries : List (String × List FileName)) : Std.ExtTreeMap String (List FileName) :=
  entries.foldl (fun index entry => index.insert entry.1 entry.2) index

/-- Adding files in turn adds all of them, or fails at the first that no dot path
addresses. -/
theorem foldlM_addPath (root : String) (paths : List (List FileName))
    (index : Std.ExtTreeMap String (List FileName)) :
    paths.foldlM (addPath root) index =
      match TemplateFile.named paths with
      | .error (path, _) => .error (.invalidTemplatePath (FileTree.showPath root path))
      | .ok entries => .ok (insertAll index entries) := by
  induction paths generalizing index with
  | nil => rfl
  | cons path paths ih =>
      rw [List.foldlM_cons, addPath, TemplateFile.named]
      cases TemplateFile.dotPath FileName.text? path with
      | error segment => rfl
      | ok name =>
          refine (ih (index.insert name path)).trans ?_
          cases TemplateFile.named paths <;> rfl

/-- In an index a dot path stands for the file that was added under it, or else for the one it
stood for. -/
theorem getElem?_insertAll {entries : List (String × List FileName)}
    (h : (entries.map Prod.fst).Nodup) (index : Std.ExtTreeMap String (List FileName))
    (name : String) (path : List FileName) :
    (insertAll index entries)[name]? = some path ↔
      (name, path) ∈ entries ∨ name ∉ entries.map Prod.fst ∧ index[name]? = some path := by
  induction entries generalizing index with
  | nil => simp [insertAll]
  | cons entry entries ih =>
      obtain ⟨key, file⟩ := entry
      obtain ⟨hkey, hrest⟩ := List.nodup_cons.1 h
      refine (ih hrest (index.insert key file)).trans ?_
      rw [Std.ExtTreeMap.getElem?_insert, List.mem_cons, List.map_cons, List.mem_cons]
      by_cases heq : key = name
      · subst heq
        have hnot : (key, path) ∉ entries := fun hm => hkey (List.mem_map.2 ⟨_, hm, rfl⟩)
        simp [hkey, hnot, eq_comm]
      · have hne : name ≠ key := Ne.symm heq
        simp [heq, hne]

theorem openAt_eq (root : String) (rootName : FileName) (extension : String)
    (tree : FileTree) :
    openAt root rootName extension (some tree) =
      match TemplateFile.named (TemplateFile.paths rootName extension tree) with
      | .error (path, _) => .error (.invalidTemplatePath (FileTree.showPath root path))
      | .ok entries => .ok { root, index := insertAll ∅ entries, tree } := by
  rw [openAt, indexOf, foldlM_addPath]
  cases TemplateFile.named (TemplateFile.paths rootName extension tree) <;> rfl

end Directory

namespace Embedding

/-- The rows of files in turn are those of all of them, or fail at the first that no dot path
addresses. -/
theorem mapM_row (shown : String) (paths : List (List FileName)) :
    paths.mapM (row shown) =
      match TemplateFile.named paths with
      | .error (path, segment) =>
          .error (.badSegment (FileTree.fullName shown path) (String.ofList segment.shown))
      | .ok entries =>
          .ok (entries.map fun entry => (entry.1, FileTree.showPath shown entry.2)) := by
  induction paths with
  | nil => rfl
  | cons path paths ih =>
      rw [List.mapM_cons, row, TemplateFile.dotPath_loose, TemplateFile.named, ih]
      cases TemplateFile.dotPath FileName.text? path with
      | error segment => rfl
      | ok name => cases TemplateFile.named paths <;> rfl

/-! ## Where the directory is -/

/-- Following names ends at a directory. -/
theorem isDirAt_of_follow {world : FileTree} {path names found : List FileName}
    (h : follow world path names = some found) : isDirAt world found = true := by
  induction names generalizing path with
  | nil =>
      rw [follow] at h
      split at h
      · next hdir => rwa [← Option.some.inj h]
      · cases h
  | cons name names ih =>
      rw [follow] at h
      split at h
      · cases h
      · split at h <;> exact ih h

theorem exists_entries_of_directory? {project : Project} {dir : String} {tree : FileTree}
    (h : directory? project dir = some tree) : ∃ entries, tree = .dir entries := by
  obtain ⟨path, hfollow, hfind⟩ := Option.bind_eq_some_iff.1 h
  have hdir := isDirAt_of_follow hfollow
  rw [isDirAt, hfind] at hdir
  cases tree with
  | file content => cases hdir
  | dir entries => exact ⟨entries, rfl⟩

end Embedding

/-! ## Stores that answer alike -/

namespace Engine

variable {S S' : Type} [Source S] [Source S'] {store : S} {store' : S'}

/-- Loads from stores that answer alike are the same runs. -/
theorem load_congr (h : ∀ path, source store path = source store' path) (options : Options) :
    load store options = load store' options := by
  funext path
  rw [load, load, lookup, lookup, h path]

theorem callNode_congr (h : ∀ path, source store path = source store' path)
    (options : Options) (node : Node) (data : Bindings) :
    callNode store options node data = callNode store' options node data := by
  rw [callNode, callNode, load_congr h]

theorem renderPath_congr (h : ∀ path, source store path = source store' path)
    (options : Options) (path : String) (data : Bindings) :
    renderPath store options path data = renderPath store' options path data := by
  rw [renderPath, renderPath, load_congr h]
  exact congrArg _ (funext fun node => callNode_congr h options node data)

/-- Engines over the stores give the same results and remember the same, whatever they
remembered before. -/
structure Interchangeable (store : S) (store' : S') : Prop where
  source : ∀ path, source store path = source store' path
  render : ∀ options memory path data,
    ((Engine.mk store options memory).render path data).map id Engine.memory =
      ((Engine.mk store' options memory).render path data).map id Engine.memory
  call : ∀ options memory node data,
    ((Engine.mk store options memory).call node data).map id Engine.memory =
      ((Engine.mk store' options memory).call node data).map id Engine.memory

theorem interchangeable_of_source_eq (h : ∀ path, source store path = source store' path) :
    Interchangeable store store' where
  source := h
  render options memory path data := by
    rw [Engine.render, Engine.render, perform, perform, renderPath_congr h]
    rfl
  call options memory node data := by
    rw [Engine.call, Engine.call, perform, perform, callNode_congr h]
    rfl

end Engine

/-! ## The table of a directory -/

/-- The table with a text for the file of every row. -/
def Embedded.ofRows (read : String → String) (rows : List (String × String)) : Embedded :=
  ⟨rows.map fun row => (row.1, read row.2)⟩

namespace Embedding

/-- Every entry of the index stands in the rows once, and nothing else does. -/
structure Lists (shown : String) (rows : List (String × String)) (store : Directory) : Prop where
  nodup : (rows.map Prod.fst).Nodup
  mem_iff : ∀ name file, (name, file) ∈ rows ↔
    ∃ path, store.index[name]? = some path ∧ file = FileTree.showPath shown path

/-- The rows of files with different dot paths list the index of these files. -/
theorem lists_of_nodup (root shown : String) (tree : FileTree)
    {entries : List (String × List FileName)} (h : (entries.map Prod.fst).Nodup) :
    Lists shown (entries.map fun entry => (entry.1, FileTree.showPath shown entry.2))
      { root, index := Directory.insertAll ∅ entries, tree } where
  nodup := by
    rw [List.map_map]
    exact h
  mem_iff name file := by
    have hindex : ∀ path, (Directory.insertAll ∅ entries)[name]? = some path ↔
        (name, path) ∈ entries := fun path => by
      rw [Directory.getElem?_insertAll h]
      simp
    simp only [hindex, List.mem_map, Prod.mk.injEq]
    constructor
    · rintro ⟨⟨other, path⟩, hm, rfl, rfl⟩
      exact ⟨path, hm, rfl⟩
    · rintro ⟨path, hm, rfl⟩
      exact ⟨(name, path), hm, rfl, rfl⟩

/-- A table whose texts are those of the files answers as the directory does. -/
theorem Lists.source_eq {shown : String} {rows : List (String × String)} {store : Directory}
    (h : Lists shown rows store) {read : String → String}
    (hread : ∀ (name : String) path, store.index[name]? = some path →
      store.readText path = .ok (read (FileTree.showPath shown path))) (path : String) :
    source (Embedded.ofRows read rows) path = source store path := by
  have hnodup : ((Embedded.ofRows read rows).table.map Prod.fst).Nodup := by
    rw [Embedded.ofRows, List.map_map]
    exact h.nodup
  cases hindex : store.index[path]? with
  | some file =>
      have hrow : (path, read (FileTree.showPath shown file)) ∈
          (Embedded.ofRows read rows).table :=
        List.mem_map.2 ⟨_, (h.mem_iff path _).2 ⟨file, hindex, rfl⟩, rfl⟩
      have hlookup := (lookup_eq_some_iff_mem hnodup).2 hrow
      simp only [source, hindex, hlookup]
      exact (hread path file hindex).symm
  | none =>
      cases hlookup : (Embedded.ofRows read rows).table.lookup path with
      | none => simp only [source, hindex, hlookup]
      | some text =>
          obtain ⟨⟨name, shownFile⟩, hrow, heq⟩ :=
            List.mem_map.1 ((lookup_eq_some_iff_mem hnodup).1 hlookup)
          obtain ⟨rfl, -⟩ := Prod.mk.inj heq
          obtain ⟨file, hfile, -⟩ := (h.mem_iff name shownFile).1 hrow
          rw [hindex] at hfile
          cases hfile

/-- Embedding a directory and opening it agree on every tree.  Both succeed or both fail, and
they fail at the same file.  If they succeed, the rows are the entries of the index, each
once.  With the texts that the files of the directory have now, the table is then
interchangeable with the directory. -/
theorem expand_agrees (project : Project) (dir root : String) (rootName : FileName)
    (extension : String) {tree : FileTree} (hdir : directory? project dir = some tree)
    (hdistinct : tree.distinct = true) :
    ((∃ rows, expand (some project) dir extension = .ok rows) ↔
        ∃ store, Directory.openAt root rootName extension (some tree) = .ok store) ∧
      (∀ e e', expand (some project) dir extension = .error e →
        Directory.openAt root rootName extension (some tree) = .error e' →
          ∃ path ∈ TemplateFile.paths rootName extension tree, ∃ segment,
            e = .badSegment (FileTree.fullName (shownDirectory project dir) path) segment ∧
            e' = .invalidTemplatePath (FileTree.showPath root path)) ∧
      ∀ rows store, expand (some project) dir extension = .ok rows →
        Directory.openAt root rootName extension (some tree) = .ok store →
          Lists (shownDirectory project dir) rows store ∧
          ∀ (read : String → String) (now : FileTree),
            (∀ (name : String) path, store.index[name]? = some path →
              { store with tree := now }.readText path =
                .ok (read (FileTree.showPath (shownDirectory project dir) path))) →
            Engine.Interchangeable (Embedded.ofRows read rows) { store with tree := now } := by
  obtain ⟨entries, rfl⟩ := exists_entries_of_directory? hdir
  have hpaths : TemplateFile.paths "" extension (.dir entries) =
      TemplateFile.paths rootName extension (.dir entries) :=
    TemplateFile.paths_dir "" rootName extension entries
  have hexpand : expand (some project) dir extension =
      rows (shownDirectory project dir) extension (.dir entries) := by
    rw [expand]
    simp only [hdir]
  rw [hexpand, rows, hpaths, mapM_row, Directory.openAt_eq]
  cases hnamed : TemplateFile.named (TemplateFile.paths rootName extension (.dir entries)) with
  | error fault =>
      obtain ⟨path, segment⟩ := fault
      obtain ⟨before, after, hsplit, -, -⟩ := TemplateFile.named_eq_error hnamed
      have hmem : path ∈ TemplateFile.paths rootName extension (.dir entries) :=
        hsplit ▸ List.mem_append_right before (List.mem_cons_self ..)
      refine ⟨⟨?_, ?_⟩, ?_, ?_⟩
      · rintro ⟨_, h⟩
        cases h
      · rintro ⟨_, h⟩
        cases h
      · intro e e' he he'
        cases he
        cases he'
        exact ⟨path, hmem, _, rfl, rfl⟩
      · intro rows store hrows
        cases hrows
  | ok files =>
      have hlists := lists_of_nodup root (shownDirectory project dir) (.dir entries)
        (TemplateFile.nodup_names hdistinct hnamed)
      refine ⟨⟨fun _ => ⟨_, rfl⟩, fun _ => ⟨_, rfl⟩⟩, ?_, ?_⟩
      · intro e e' he
        cases he
      · intro rows store hrows hstore
        cases hrows
        cases hstore
        refine ⟨hlists, fun read now hread => ?_⟩
        -- The index was made at opening, so the rows list it whatever the files hold now.
        have hnow : Lists (shownDirectory project dir) _
            { root, index := Directory.insertAll ∅ files, tree := now } :=
          ⟨hlists.nodup, hlists.mem_iff⟩
        exact Engine.interchangeable_of_source_eq (hnow.source_eq hread)

/-- A tree with a file in a directory, a file that is no template and a name that is no text.
The template that includes the file in the directory gives the same text from both. -/
theorem expand_agrees_included :
    ∃ (project : Project) (tree : FileTree) (rows : List (String × String)) (store : Directory)
      (read : String → String),
      directory? project "q" = some tree ∧ tree.distinct = true ∧
      expand (some project) "q" "sql" = .ok rows ∧
      Directory.openAt "/p/q" "q" "sql" (some tree) = .ok store ∧
      rows = [("all", "/p/q/all.sql"), ("users.list", "/p/q/users/list.sql")] ∧
      Lists (shownDirectory project "q") rows store ∧
      Engine.Interchangeable (Embedded.ofRows read rows) store ∧
      source (Embedded.ofRows read rows) "users.list" = source store "users.list" ∧
      ((Engine.mk store {} {}).render "all" ∅).1 = .ok "(SELECT 1)" := by
  have hliteral : ((Engine.mk (Embedded.mk
      [("all", "(\x7b\x7b> include 'users.list'\x7d\x7d)"), ("users.list", "SELECT 1")])
        {} {}).render "all" ∅).1 = .ok "(SELECT 1)" := by
    cbv
  let all := "(\x7b\x7b> include 'users.list'\x7d\x7d)"
  let tree : FileTree := .dir
    [("users", .dir [("notes.txt", .file "x".toUTF8), ("list.sql", .file "SELECT 1".toUTF8)]),
      (⟨[.char 'a', .broken [0xFF]]⟩, .dir []), ("all.sql", .file all.toUTF8)]
  let project : Project :=
    { world := .dir [("p", .dir [("q", tree)])], path := ["p"], shown := "/p" }
  let files : List (String × List FileName) :=
    [("all", ["all.sql"]), ("users.list", ["users", "list.sql"])]
  let rows := [("all", "/p/q/all.sql"), ("users.list", "/p/q/users/list.sql")]
  let store : Directory := { root := "/p/q", index := Directory.insertAll ∅ files, tree }
  let read : String → String := fun file =>
    if file = "/p/q/all.sql" then all else "SELECT 1"
  have hdir : directory? project "q" = some tree := by cbv
  have hdistinct : tree.distinct = true := by cbv
  have hexpand : expand (some project) "q" "sql" = .ok rows := by cbv
  have hopen : Directory.openAt "/p/q" "q" "sql" (some tree) = .ok store := by
    have hnamed : TemplateFile.named (TemplateFile.paths "q" "sql" tree) = .ok files := by cbv
    rw [Directory.openAt_eq, hnamed]
  have hshown : shownDirectory project "q" = "/p/q" := by cbv
  have hreadAll : store.readText ["all.sql"] = .ok all := by
    show Directory.readText { root := "/p/q", index := _, tree } _ = _
    generalize Directory.insertAll ∅ files = index
    cbv
  have hreadList : store.readText ["users", "list.sql"] = .ok "SELECT 1" := by
    show Directory.readText { root := "/p/q", index := _, tree } _ = _
    generalize Directory.insertAll ∅ files = index
    cbv
  have hread : ∀ (name : String) path, store.index[name]? = some path →
      store.readText path =
        .ok (read (FileTree.showPath (shownDirectory project "q") path)) := by
    intro name path hindex
    rw [hshown]
    rcases (Directory.getElem?_insertAll (by simp [files]) ∅ name path).1 hindex with
      hmem | ⟨-, hempty⟩
    · simp only [files, List.mem_cons, Prod.mk.injEq, List.not_mem_nil, or_false] at hmem
      rcases hmem with ⟨-, rfl⟩ | ⟨-, rfl⟩
      · exact hreadAll
      · exact hreadList
    · simp at hempty
  obtain ⟨hlists, hnow⟩ := (expand_agrees project "q" "/p/q" "q" "sql" hdir hdistinct).2.2
    rows store hexpand hopen
  have hsame := hnow read tree hread
  have hrender : ((Engine.mk (Embedded.ofRows read rows) {} {}).render "all" ∅).1 =
      .ok "(SELECT 1)" := by
    have htable : Embedded.ofRows read rows = ⟨[("all", all), ("users.list", "SELECT 1")]⟩ := by
      simp [Embedded.ofRows, read, rows]
    rw [htable]
    exact hliteral
  refine ⟨project, tree, rows, store, read, hdir, hdistinct, hexpand, hopen, rfl, hlists, hsame,
    hsame.source "users.list", ?_⟩
  have hresult := congrArg Prod.fst (hsame.render {} {} "all" ∅)
  simp only [Prod.map_fst, id_eq] at hresult
  exact hresult.symm.trans hrender

end Embedding

end SqlTemplates
