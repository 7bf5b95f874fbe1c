import SqlTemplates.Text.Quoted
import SqlTemplates.Store.Embedded
import SqlTemplates.Store.TemplateFile

/-!
# Embedding a directory

A directory of template files can be built into a program: every file becomes a row
of a table, with its dot path.  The directory is given relative to the project that
embeds it, and may step out of it and back in.

The rows stand in walking order, which is not the order of the dot paths.
-/

namespace SqlTemplates

/-- Why a directory cannot be embedded. -/
inductive EmbedError
  /-- It is not known where the project is. -/
  | noProject
  /-- There is no directory at this path. -/
  | noDirectory (path : String)
  /-- A segment of a file cannot be a part of a dot path. -/
  | badSegment (file : FileName) (segment : String)
deriving DecidableEq, Repr

/-- The wording of an error. -/
def EmbedError.message : EmbedError → String
  | .noProject => "CARGO_MANIFEST_DIR not set"
  | .noDirectory path => "Directory not found: " ++ Text.quoted path
  | .badSegment file segment =>
      "template " ++ file.quoted ++ " has a path segment " ++ Text.quoted segment
        ++ " that cannot be part of a dot path"

namespace Embedding

/-- Where a project stands: the files of the file system from its top, the path of the
project among them and how messages call that path. -/
structure Project where
  /-- All files. -/
  world : FileTree
  path : List FileName
  /-- How messages call the path. -/
  shown : String

/-- The path leads to a directory. -/
def isDirAt (world : FileTree) (path : List FileName) : Bool :=
  ((world.find? path).map FileTree.isDir).getD false

/-- Follows names from a path, which has to be a directory at every step.  Two dots
lead to the directory above, and the top is above itself. -/
def follow (world : FileTree) : List FileName → List FileName → Option (List FileName)
  | path, [] => if isDirAt world path then some path else none
  | path, name :: names =>
      if !isDirAt world path then none
      else if name = (".." : FileName) then follow world path.dropLast names
      else follow world (path ++ [name]) names

/-- The path of a directory as messages call it.  A path from the top of the file system
stands for itself. -/
def shownDirectory (project : Project) (dir : String) : String :=
  if dir.startsWith "/" then dir
  else if project.shown.endsWith "/" then project.shown ++ dir
  else project.shown ++ "/" ++ dir

/-- The directory with this path, which starts at the project or at the top. -/
def directory? (project : Project) (dir : String) : Option FileTree :=
  let start := if dir.startsWith "/" then [] else project.path
  (follow project.world start (FileTree.parsePath dir)).bind fun path => project.world.find? path

/-- The row of a template file: its dot path and its path.  Names are read loosely. -/
def row (shown : String) (path : List FileName) : Except EmbedError (String × String) :=
  match TemplateFile.dotPath FileName.loose path with
  | .error segment =>
      .error (.badSegment (FileTree.fullName shown path) (String.ofList segment.shown))
  | .ok name => .ok (name, FileTree.showPath shown path)

/-- The dot paths and the paths of the template files below a tree, in walking order. -/
def rows (shown extension : String) (tree : FileTree) :
    Except EmbedError (List (String × String)) :=
  (TemplateFile.paths "" extension tree).mapM (row shown)

/-- The rows for a directory of a project. -/
def expand (project : Option Project) (dir extension : String) :
    Except EmbedError (List (String × String)) :=
  match project with
  | none => .error .noProject
  | some project =>
      let shown := shownDirectory project dir
      match directory? project dir with
      | none => .error (.noDirectory shown)
      | some tree => rows shown extension tree

end Embedding

end SqlTemplates
