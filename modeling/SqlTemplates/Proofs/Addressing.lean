import Mathlib
import SqlTemplates.Proofs.Agreement
import SqlTemplates.Proofs.Compiled
import SqlTemplates.Proofs.Loads

/-!
# Including the templates of a directory

A dot path in an index was put together from segments, and a dot path in a tag is checked as a
whole.  Every template below a directory can be included all the same
(`Directory.Addressable`), since segments that are joined are a dot path.

It takes one segment at least.  If the root is a file itself, its path below the root is empty
and has no segments, so nothing stands against it: the file gets the empty name, which no tag
can ask for (`Directory.openAt_addressable`).
-/

namespace SqlTemplates

variable {σ : Type}

/-! ## Names -/

namespace TemplateFile

/-- What one or more segments spell is a dot path. -/
theorem Spells.isDotPath {segments : List FileName} {name : String} (h : Spells segments name)
    (hne : segments ≠ []) : Name.isDotPath name.toList = true := by
  obtain ⟨texts, rfl, hall, rfl⟩ := h
  rw [String.toList_ofList]
  exact Name.isDotPath_joinDots (by simpa using hne) hall

end TemplateFile

namespace Directory

/-- A file in an index was added under its dot path. -/
theorem mem_of_getElem?_insertAll {entries : List (String × List FileName)}
    {index : Std.ExtTreeMap String (List FileName)} {name : String} {path : List FileName}
    (h : (insertAll index entries)[name]? = some path) :
    (name, path) ∈ entries ∨ index[name]? = some path := by
  induction entries generalizing index with
  | nil => exact .inr h
  | cons entry entries ih =>
      rcases ih h with hm | hindex
      · exact .inl (List.mem_cons_of_mem _ hm)
      · rw [Std.ExtTreeMap.getElem?_insert] at hindex
        split at hindex
        · next heq =>
            cases hindex
            obtain rfl : entry.1 = name := by simpa using heq
            exact .inl (List.mem_cons_self ..)
        · exact .inr hindex

/-- The index of an open directory leads to template files, and from their dot paths. -/
theorem dotPath_of_openAt {root : String} {rootName : FileName} {extension : String}
    {tree : FileTree} {store : Directory}
    (hopen : openAt root rootName extension (some tree) = .ok store) {name : String}
    {path : List FileName} (h : store.index[name]? = some path) :
    path ∈ TemplateFile.paths rootName extension tree ∧
      TemplateFile.dotPath FileName.text? path = .ok name := by
  rw [openAt_eq] at hopen
  cases hnamed : TemplateFile.named (TemplateFile.paths rootName extension tree) with
  | error fault =>
      rw [hnamed] at hopen
      cases hopen
  | ok files =>
      rw [hnamed] at hopen
      cases hopen
      obtain ⟨hpaths, hnames⟩ := TemplateFile.named_eq_ok hnamed
      rcases mem_of_getElem?_insertAll h with hm | hempty
      · exact ⟨hpaths ▸ List.mem_map_of_mem hm, hnames _ hm⟩
      · simp at hempty

end Directory

/-! ## Including a template -/

/-- Where a template may still be nested, a tag that includes it loads it and puts its text
into the wrapper. -/
theorem Node.evaluate_inclusion (load : String → Run σ Node) (n : Nat) {ctx : Context}
    (h : ctx.depth < ctx.maxDepth) (kind : Wrapper) (path : String) :
    (sequence [.partialCall kind path []]).evaluate (Resolver.nest load (n + 1)) ctx =
      load path >>= fun inner =>
        kind.wrap <$> inner.evaluate (Resolver.nest load n) (ctx.child ∅) := by
  rw [evaluate_eq_text, text, textAll_singleton, text, paramValues, pure_bind, Resolver.call,
    if_pos h, Resolver.nest, bind_assoc]
  simp only [map_eq_pure_bind]
  rfl

namespace Directory

/-- The template in the file at this path can be included under this name, whatever the files
hold by then. -/
structure Addressable (store : Directory) (name : String) (path : List FileName) : Prop where
  isDotPath : Name.isDotPath name.toList = true
  /-- The tag that includes it compiles. -/
  compiles : ∀ kind : Wrapper,
    compile (kind.inclusion name) = .ok (.sequence [.partialCall kind name []])
  /-- Below the depth limit, evaluating the tag loads the name first. -/
  enters : ∀ (kind : Wrapper) (now : FileTree) (options : Options) (n : Nat) (ctx : Context),
    ctx.depth < ctx.maxDepth →
      (Node.sequence [.partialCall kind name []]).evaluate
          (Resolver.nest (Engine.load { store with tree := now } options) (n + 1)) ctx =
        Engine.load { store with tree := now } options name >>= fun inner =>
          kind.wrap <$> inner.evaluate
            (Resolver.nest (Engine.load { store with tree := now } options) n) (ctx.child ∅)
  /-- Unless it is remembered, loading the name looks it up and compiles the text that is in
  the file. -/
  loads : ∀ (now : FileTree) (options : Options) (memory : Memory),
    memory.cache[name]? = none →
      (Load.mk ⟨{ store with tree := now }, options, memory⟩ name).lookups = [name] ∧
      (Load.mk ⟨{ store with tree := now }, options, memory⟩ name).result =
        ({ store with tree := now }.readText path >>= compile)

/-- A name of the index stands for the text that is in its file now. -/
theorem source_of_index {store : Directory} {name : String} {path : List FileName}
    (h : store.index[name]? = some path) (now : FileTree) :
    source { store with tree := now } name = { store with tree := now }.readText path := by
  simp only [source, h]

/-- A dot path of the index is all that it takes. -/
theorem addressable_of_isDotPath {store : Directory} {name : String} {path : List FileName}
    (hname : Name.isDotPath name.toList = true) (hindex : store.index[name]? = some path) :
    Addressable store name path where
  isDotPath := hname
  compiles kind := compile_inclusion kind hname
  enters kind now options n _ h := Node.evaluate_inclusion _ n h kind name
  loads now options memory h := by
    rw [← source_of_index hindex]
    exact (Load.of_miss h).symm

/-- No tag includes the template with the empty name. -/
theorem compile_inclusion_empty (kind : Wrapper) (node : Node) :
    compile (kind.inclusion "") ≠ .ok node := by
  intro h
  have hempty : (compile (kind.inclusion "")).toOption = none := by cases kind <;> cbv
  rw [h] at hempty
  cases hempty

/-- All templates below a directory can be included under their names in the index.  If the
root is a file, the only name is the empty one, and no tag that would include it compiles. -/
theorem openAt_addressable {root : String} {rootName : FileName} {extension : String}
    {tree : FileTree} {store : Directory}
    (hopen : openAt root rootName extension (some tree) = .ok store) {name : String}
    {path : List FileName} (hindex : store.index[name]? = some path) :
    (tree.isDir = true → Addressable store name path) ∧
      (tree.isDir = false →
        name = "" ∧ path = [] ∧
          ∀ (kind : Wrapper) node, compile (kind.inclusion name) ≠ .ok node) := by
  obtain ⟨hmem, hdotPath⟩ := dotPath_of_openAt hopen hindex
  cases tree with
  | dir entries =>
      obtain ⟨dirs, last, rfl, -⟩ := TemplateFile.exists_of_mem_paths hmem
      have hspells := TemplateFile.dotPath_eq_ok_iff.1 hdotPath
      rw [TemplateFile.segments_concat] at hspells
      have hname := hspells.isDotPath
        (List.append_ne_nil_of_right_ne_nil dirs (List.cons_ne_nil _ []))
      exact ⟨fun _ => addressable_of_isDotPath hname hindex, nofun⟩
  | file content =>
      -- The only path is the root's own, which has no segments that could stand against it.
      have hwalk := (List.mem_filter.1 hmem).1
      rw [FileTree.walk, List.map_singleton, List.mem_singleton] at hwalk
      subst hwalk
      obtain rfl : "" = name := Except.ok.inj hdotPath
      exact ⟨nofun, fun _ => ⟨rfl, rfl, compile_inclusion_empty⟩⟩

/-- A file in a directory can be included under its name, and what the tag gives is the text of
the file. -/
theorem openAt_addressable_listed :
    ∃ (tree : FileTree) (store : Directory), tree.isDir = true ∧
      openAt "/q" "q" "sql" (some tree) = .ok store ∧
      store.index["users.list"]? = some [("users" : FileName), ("list.sql" : FileName)] ∧
      Addressable store "users.list" ["users", "list.sql"] ∧
      store.readText ["users", "list.sql"] = .ok "SELECT 1" := by
  let tree : FileTree := .dir [("users", .dir [("list.sql", .file "SELECT 1".toUTF8)])]
  let files : List (String × List FileName) := [("users.list", ["users", "list.sql"])]
  have hopen : openAt "/q" "q" "sql" (some tree) =
      .ok { root := "/q", index := insertAll ∅ files, tree } := by
    have hnamed : TemplateFile.named (TemplateFile.paths "q" "sql" tree) = .ok files := by cbv
    rw [openAt_eq, hnamed]
  have hindex : (insertAll ∅ files)["users.list"]? =
      some [("users" : FileName), ("list.sql" : FileName)] :=
    (getElem?_insertAll (by simp [files]) ∅ _ _).2 (.inl (List.mem_singleton_self _))
  refine ⟨tree, _, rfl, hopen, hindex, (openAt_addressable hopen hindex).1 rfl, ?_⟩
  generalize insertAll ∅ files = index
  cbv

/-- A root that is a template file itself is opened, and its name is no dot path. -/
theorem openAt_file_not_addressable :
    ∃ store, openAt "<root>" "a.sql" "sql" (some (.file "SELECT 1".toUTF8)) = .ok store ∧
      store.index[""]? = some [] ∧ Name.isDotPath "".toList = false ∧
      ∀ node, compile (Wrapper.bare.inclusion "") ≠ .ok node := by
  have hnamed : TemplateFile.named
      (TemplateFile.paths "a.sql" "sql" (.file "SELECT 1".toUTF8)) = .ok [("", [])] := by cbv
  have hopen := openAt_eq "<root>" "a.sql" "sql" (.file "SELECT 1".toUTF8)
  rw [hnamed] at hopen
  refine ⟨_, hopen, ?_, by decide, compile_inclusion_empty .bare⟩
  exact (getElem?_insertAll (by simp) ∅ _ _).2 (.inl (List.mem_singleton_self _))

end Directory

end SqlTemplates
