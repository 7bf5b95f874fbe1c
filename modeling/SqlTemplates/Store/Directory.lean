import SqlTemplates.Engine
import SqlTemplates.Store.TemplateFile

/-!
# Directories of templates

A directory of template files is a store.  Its index, from dot paths to files, is
made once when it is opened.  The text of a file is read when it is looked up, so
changes to an indexed file are seen while new files are not.

Opening fails at the first template file, in walking order, that no dot path
addresses.
-/

namespace SqlTemplates

/-- A directory of template files. -/
structure Directory where
  /-- How the directory is named in messages. -/
  root : String
  /-- The path of the file that each dot path stands for. -/
  index : Std.ExtTreeMap String (List FileName)
  /-- The files as they are now. -/
  tree : FileTree

namespace Directory

/-- The extension of template files unless something else is asked for. -/
def defaultExtension : String := "sql"

/-- Adds a file to an index, if a dot path addresses it.  Names are read strictly. -/
def addPath (root : String) (index : Std.ExtTreeMap String (List FileName))
    (path : List FileName) : Except Error (Std.ExtTreeMap String (List FileName)) :=
  match TemplateFile.dotPath FileName.text? path with
  | .error _ => .error (.invalidTemplatePath (FileTree.showPath root path))
  | .ok name => .ok (index.insert name path)

/-- The index of the template files of a tree. -/
def indexOf (root : String) (rootName : FileName) (extension : String) (tree : FileTree) :
    Except Error (Std.ExtTreeMap String (List FileName)) :=
  (TemplateFile.paths rootName extension tree).foldlM (addPath root) ∅

/-- Opens the directory that messages call `root` and whose own name is `rootName`.
There has to be something there. -/
def openAt (root : String) (rootName : FileName) (extension : String) :
    Option FileTree → Except Error Directory
  | none => .error (.missingRoot root)
  | some tree => do
      let index ← indexOf root rootName extension tree
      return { root, index, tree }

/-- The dot paths of the index, in order. -/
def names (store : Directory) : List String := store.index.keys

/-- The text of a file. -/
def readText (store : Directory) (path : List FileName) : Except Error String :=
  let shown := FileTree.showPath store.root path
  match store.tree.read? path with
  | none => .error (.unreadable shown .missing)
  | some content =>
      match String.fromUTF8? content with
      | none => .error (.unreadable shown .notUtf8)
      | some text => .ok text

instance : Source Directory where
  source store path :=
    match store.index[path]? with
    | none => .error (.partialNotFound path)
    | some file => store.readText file

/-- The directory after a file was written. -/
def write (store : Directory) (path : List FileName) (content : ByteArray) : Directory :=
  { store with tree := FileTree.put (.file content) path store.tree }

/-- The directory after a file was deleted.  What is no file stays. -/
def delete (store : Directory) (path : List FileName) : Directory :=
  match store.tree.read? path with
  | none => store
  | some _ => { store with tree := store.tree.erase path }

end Directory

end SqlTemplates
