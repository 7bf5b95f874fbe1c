import SqlTemplates.Store.FileName
import SqlTemplates.Text.Split

/-!
# File trees

A file tree is a file with its bytes or a directory with named entries.  A path is a
list of names.

`FileTree.walk` lists the files depth first, with the entries of every directory in
the order of their names, whatever order the tree holds them in.
-/

namespace SqlTemplates

/-- A file or a directory. -/
inductive FileTree
  | file (content : ByteArray)
  | dir (entries : List (FileName × FileTree))
deriving Inhabited

namespace FileTree

/-! ## Reading -/

/-- The entries of a directory; a file has none. -/
def entries : FileTree → List (FileName × FileTree)
  | .file _ => []
  | .dir entries => entries

/-- It is a directory. -/
def isDir : FileTree → Bool
  | .file _ => false
  | .dir _ => true

/-- What is at a path. -/
def find? : List FileName → FileTree → Option FileTree
  | [], tree => some tree
  | name :: path, tree => (tree.entries.lookup name).bind (find? path)

/-- The bytes of the file at a path. -/
def read? (path : List FileName) (tree : FileTree) : Option ByteArray :=
  match tree.find? path with
  | some (.file content) => some content
  | _ => none

/-! ## Writing -/

/-- The entries with one of them set. -/
def setEntry (name : FileName) (tree : FileTree) :
    List (FileName × FileTree) → List (FileName × FileTree)
  | [] => [(name, tree)]
  | entry :: rest =>
      if entry.1 = name then (name, tree) :: rest else entry :: setEntry name tree rest

/-- The entry of this name, or an empty directory. -/
def childOrEmpty (tree : FileTree) (name : FileName) : FileTree :=
  (tree.entries.lookup name).getD (.dir [])

/-- The tree with `new` at a path.  Directories on the way are made. -/
def put (new : FileTree) : List FileName → FileTree → FileTree
  | [], _ => new
  | name :: path, tree =>
      .dir (setEntry name (put new path (tree.childOrEmpty name)) tree.entries)

/-- The tree with a directory at a path, which keeps what it holds. -/
def makeDir : List FileName → FileTree → FileTree
  | [], tree => if tree.isDir then tree else .dir []
  | name :: path, tree =>
      .dir (setEntry name (makeDir path (tree.childOrEmpty name)) tree.entries)

/-- The tree without what is at a path. -/
def erase : List FileName → FileTree → FileTree
  | [], tree => tree
  | [name], tree => .dir (tree.entries.filter fun entry => entry.1 ≠ name)
  | name :: path, tree =>
      match tree.entries.lookup name with
      | none => tree
      | some child => .dir (setEntry name (erase path child) tree.entries)

/-! ## Walking -/

/-- Inserts an item among items that are ordered by name. -/
def insertByName {α : Type} (item : FileName × α) : List (FileName × α) → List (FileName × α)
  | [] => [item]
  | other :: rest =>
      if item.1 < other.1 then item :: other :: rest else other :: insertByName item rest

mutual

/-- The files of a tree with their paths, depth first and in the order of names. -/
def walk : FileTree → List (List FileName × ByteArray)
  | .file content => [([], content)]
  | .dir entries =>
      (walkEntries entries).flatMap fun (name, files) =>
        files.map fun (path, content) => (name :: path, content)

/-- The files of every entry, with the entries in the order of their names. -/
def walkEntries :
    List (FileName × FileTree) → List (FileName × List (List FileName × ByteArray))
  | [] => []
  | (name, tree) :: rest => insertByName (name, tree.walk) (walkEntries rest)

end

/-! ## Paths as text -/

/-- The names of a path as it is written, with slashes between them.  Empty names and
single dots stand for nothing. -/
def parsePath (s : String) : List FileName :=
  ((Text.splitOn '/' s.toList).filter fun name => name ≠ [] ∧ name ≠ ['.']).map FileName.ofText

/-- A path below a place, in one name. -/
def fullName (place : String) (path : List FileName) : FileName :=
  path.foldl
    (fun whole name =>
      if whole.parts.getLast? = some (.char '/') then whole ++ name
      else whole ++ ("/" : FileName) ++ name)
    place

/-- A path below a place, as messages show it. -/
def showPath (place : String) (path : List FileName) : String :=
  String.ofList (fullName place path).shown

end FileTree

end SqlTemplates
