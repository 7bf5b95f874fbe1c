import SqlTemplates.Proofs.Indexing

/-!
# The order of a walk

A walk lists the files of a tree, and nothing else (`FileTree.mem_walk_iff`).  It lists them
depth first: after what two paths have in common, the one that goes on with the smaller name
comes first (`FileTree.Precedes`).  `FileTree.walk_ordered` says that no path of a walk
precedes one that is listed before it, whatever order the tree holds its entries in.  If names
are told apart by their bytes, as those of a file system are, any two files are in this order
one way or the other (`FileTree.precedes_or_precedes`).
-/

namespace SqlTemplates

/-! ## Names in order -/

namespace FileName

theorem lt_asymm {a b : FileName} (h : a < b) : ¬ b < a := List.lt_asymm h

theorem lt_irrefl (a : FileName) : ¬ a < a := List.lt_irrefl a.bytes

theorem lt_trans {a b c : FileName} (h : a < b) (h' : b < c) : a < c := List.lt_trans h h'

theorem lt_or_lt {a b : FileName} (h : a.bytes ≠ b.bytes) : a < b ∨ b < a := by
  by_contra hnot
  rw [not_or] at hnot
  exact h (List.le_antisymm (List.not_lt.1 hnot.2) (List.not_lt.1 hnot.1))

end FileName

namespace FileTree

/-- Inserting an item by its name keeps items in the order of their names. -/
theorem insertByName_ordered {α : Type} (item : FileName × α) {items : List (FileName × α)}
    (h : items.Pairwise fun a b => ¬ b.1 < a.1) :
    (insertByName item items).Pairwise fun a b => ¬ b.1 < a.1 := by
  induction items with
  | nil => exact List.pairwise_singleton _ _
  | cons other rest ih =>
      obtain ⟨hother, hrest⟩ := List.pairwise_cons.1 h
      rw [insertByName]
      split
      · next hlt =>
          refine List.pairwise_cons.2 ⟨List.forall_mem_cons.2 ⟨?_, fun later hm hless => ?_⟩, h⟩
          · exact FileName.lt_asymm hlt
          · exact hother later hm (FileName.lt_trans hless hlt)
      · next hnot =>
          refine List.pairwise_cons.2 ⟨fun later hm => ?_, ih hrest⟩
          rcases List.mem_cons.1 ((insertByName_perm item rest).mem_iff.1 hm) with rfl | hm
          · exact hnot
          · exact hother later hm

theorem walkEntries_ordered (entries : List (FileName × FileTree)) :
    (walkEntries entries).Pairwise fun a b => ¬ b.1 < a.1 := by
  induction entries with
  | nil => exact .nil
  | cons entry rest ih =>
      rw [walkEntries]
      exact insertByName_ordered _ ih

/-! ## Paths in order -/

/-- After what the paths have in common, the first goes on with the smaller name. -/
inductive Precedes : List FileName → List FileName → Prop
  | here {name other : FileName} {path path' : List FileName} :
      name < other → Precedes (name :: path) (other :: path')
  | later {name : FileName} {path path' : List FileName} :
      Precedes path path' → Precedes (name :: path) (name :: path')

theorem precedes_cons_iff {name : FileName} {path path' : List FileName} :
    Precedes (name :: path) (name :: path') ↔ Precedes path path' := by
  constructor
  · rintro (hlt | h)
    · exact absurd hlt (FileName.lt_irrefl name)
    · exact h
  · exact .later

theorem not_precedes_self (path : List FileName) : ¬ Precedes path path := by
  induction path with
  | nil => exact fun h => nomatch h
  | cons name path ih => exact precedes_cons_iff.not.2 ih

/-- Paths that start with different names are in the order of these names. -/
theorem lt_of_precedes {name other : FileName} {path path' : List FileName}
    (h : Precedes (name :: path) (other :: path')) (hne : name ≠ other) : name < other := by
  cases h with
  | here hlt => exact hlt
  | later => exact absurd rfl hne

/-- Paths that part are in an order, if names are told apart by their bytes. -/
theorem precedes_or_precedes {path other : List FileName}
    (hbytes : ∀ a ∈ path, ∀ b ∈ other, a.bytes = b.bytes → a = b) (h : ¬ path <+: other)
    (h' : ¬ other <+: path) : Precedes path other ∨ Precedes other path := by
  induction path generalizing other with
  | nil => exact absurd List.nil_prefix h
  | cons name path ih =>
      cases other with
      | nil => exact absurd List.nil_prefix h'
      | cons name' other =>
          by_cases heq : name = name'
          · subst heq
            refine (ih (fun a ha b hb => hbytes a (.tail _ ha) b (.tail _ hb)) ?_ ?_).imp
              .later .later
            · exact fun hstart => h (List.cons_prefix_cons.2 ⟨rfl, hstart⟩)
            · exact fun hstart => h' (List.cons_prefix_cons.2 ⟨rfl, hstart⟩)
          · have hne : name.bytes ≠ name'.bytes := fun he =>
              heq (hbytes name (.head _) name' (.head _) he)
            exact (FileName.lt_or_lt hne).imp .here .here

mutual

/-- No path of a walk precedes one that is listed before it. -/
theorem walk_ordered : ∀ {tree : FileTree}, tree.distinct = true →
    (tree.walk.map Prod.fst).Pairwise fun path later => ¬ Precedes later path
  | .file _, _ => by
      rw [walk]
      exact List.pairwise_singleton _ _
  | .dir entries, h => by
      rw [distinct, Bool.and_eq_true, decide_eq_true_eq] at h
      rw [map_fst_walk_dir, List.pairwise_flatMap]
      constructor
      · intro entry hentry
        obtain ⟨⟨name, tree⟩, hmem, rfl⟩ :=
          List.mem_map.1 ((walkEntries_perm entries).mem_iff.1 hentry)
        refine List.pairwise_map.2 ((walkAll_ordered h.2 (name, tree) hmem).imp ?_)
        exact fun hnot hprecedes => hnot (precedes_cons_iff.1 hprecedes)
      · -- Paths in different entries are in the order of the names of these entries.
        have hnames : (walkEntries entries).Pairwise fun a b => a.1 ≠ b.1 := by
          refine List.pairwise_map.1 ?_
          rw [← List.Nodup, ((walkEntries_perm entries).map Prod.fst).nodup_iff, List.map_map]
          exact h.1
        refine ((walkEntries_ordered entries).and hnames).imp fun {a b} ⟨hnot, hne⟩ => ?_
        intro path ha later hb hprecedes
        obtain ⟨_, -, rfl⟩ := List.mem_map.1 ha
        obtain ⟨_, -, rfl⟩ := List.mem_map.1 hb
        exact hnot (lt_of_precedes hprecedes hne.symm)

theorem walkAll_ordered : ∀ {entries : List (FileName × FileTree)}, distinctAll entries = true →
    ∀ entry ∈ entries,
      (entry.2.walk.map Prod.fst).Pairwise fun path later => ¬ Precedes later path
  | [], _ => fun _ h => nomatch h
  | (_, tree) :: rest, h => by
      rw [distinctAll, Bool.and_eq_true] at h
      exact List.forall_mem_cons.2 ⟨walk_ordered h.1, walkAll_ordered h.2⟩

end

/-! ## The files of a tree -/

/-- There is nothing below a file. -/
theorem eq_of_isPrefix_of_find? {tree found : FileTree} {path other : List FileName}
    {content : ByteArray} (h : tree.find? path = some (.file content))
    (h' : tree.find? other = some found) (hstart : path <+: other) : path = other := by
  induction path generalizing tree other with
  | nil =>
      cases h
      cases other with
      | nil => rfl
      | cons name other => cases h'
  | cons name path ih =>
      obtain ⟨rest, rfl⟩ := hstart
      rw [find?, Option.bind_eq_some_iff] at h
      rw [List.cons_append, find?, Option.bind_eq_some_iff] at h'
      obtain ⟨child, hchild, hpath⟩ := h
      obtain ⟨child', hchild', hother⟩ := h'
      rw [hchild] at hchild'
      cases hchild'
      rw [List.cons_append, ← ih hpath hother (List.prefix_append path rest)]

/-- The files below a directory are those below its entries. -/
theorem mem_walk_dir_iff {entries : List (FileName × FileTree)} {path : List FileName}
    {content : ByteArray} :
    (path, content) ∈ walk (.dir entries) ↔
      ∃ name tree rest, (name, tree) ∈ entries ∧ (rest, content) ∈ tree.walk ∧
        path = name :: rest := by
  rw [walk, ((walkEntries_perm entries).flatMap_right _).mem_iff, List.flatMap_map]
  simp only [List.mem_flatMap, List.mem_map, Prod.mk.injEq, Prod.exists]
  constructor
  · rintro ⟨name, tree, hentry, rest, _, hrest, rfl, rfl⟩
    exact ⟨name, tree, rest, hentry, hrest, rfl⟩
  · rintro ⟨name, tree, rest, hentry, hrest, rfl⟩
    exact ⟨name, tree, hentry, rest, content, hrest, rfl, rfl⟩

mutual

/-- A walk lists what there are files at. -/
theorem mem_walk_iff : ∀ {tree : FileTree}, tree.distinct = true →
    ∀ {path : List FileName} {content : ByteArray},
      (path, content) ∈ tree.walk ↔ tree.find? path = some (.file content)
  | .file _, _, path, content => by
      rw [walk, List.mem_singleton]
      cases path <;> simp [find?, entries, eq_comm]
  | .dir entries, h, path, content => by
      rw [distinct, Bool.and_eq_true, decide_eq_true_eq] at h
      have hentry := mem_walkAll_iff h.2
      rw [mem_walk_dir_iff]
      cases path with
      | nil => simp [find?]
      | cons name rest =>
          rw [find?, Option.bind_eq_some_iff]
          constructor
          · rintro ⟨_, tree, _, hmem, hwalk, ⟨⟩⟩
            exact ⟨tree, (lookup_eq_some_iff_mem h.1).2 hmem, (hentry _ hmem).1 hwalk⟩
          · rintro ⟨tree, hlookup, hfind⟩
            have hmem := (lookup_eq_some_iff_mem h.1).1 hlookup
            exact ⟨name, tree, rest, hmem, (hentry _ hmem).2 hfind, rfl⟩

theorem mem_walkAll_iff : ∀ {entries : List (FileName × FileTree)}, distinctAll entries = true →
    ∀ entry ∈ entries, ∀ {path : List FileName} {content : ByteArray},
      (path, content) ∈ entry.2.walk ↔ entry.2.find? path = some (.file content)
  | [], _ => fun _ h => nomatch h
  | (_, tree) :: rest, h => by
      rw [distinctAll, Bool.and_eq_true] at h
      exact List.forall_mem_cons.2 ⟨mem_walk_iff h.1, mem_walkAll_iff h.2⟩

end

end FileTree

end SqlTemplates
