import SqlTemplates.Name
import SqlTemplates.Store.FileTree

/-!
# Template files

A file of a tree holds a template if its name has the right extension, which is what
follows the last dot of the name.  A dot at the start of a name does not count, so a
hidden file without another dot has no extension.

The segments of such a file are the names of the directories on its path and its own
name without the extension.  If all of them can be read as segments of dot paths, joining
them gives the dot path that the file is addressed by.
-/

namespace SqlTemplates.TemplateFile

/-- The name before its last dot and the extension after it. -/
def splitExtension? (name : FileName) : Option (FileName × FileName) :=
  let reversed := name.parts.reverse
  match reversed.dropWhile (· ≠ .char '.') with
  | _ :: stem =>
      if stem.isEmpty then none
      else some (⟨stem.reverse⟩, ⟨(reversed.takeWhile (· ≠ .char '.')).reverse⟩)
  | [] => none

/-- The name has this extension. -/
def hasExtension (extension : String) (name : FileName) : Bool :=
  (splitExtension? name).map Prod.snd = some (extension : FileName)

/-- The name of a template file without its extension.  If a single dot is all that is
left, the dot of the extension stays with it. -/
def stem (name : FileName) : FileName :=
  match splitExtension? name with
  | none => name
  | some (stem, _) => if stem = ("." : FileName) then ".." else stem

/-- The segments of a file with this path. -/
def segments : List FileName → List FileName
  | [] => []
  | [name] => [stem name]
  | name :: path => name :: segments path

/-- The paths of the template files of a tree, in walking order.  `rootName` is the
name of the tree itself, in case it is a file. -/
def paths (rootName : FileName) (extension : String) (tree : FileTree) : List (List FileName) :=
  (tree.walk.map Prod.fst).filter fun path => hasExtension extension (path.getLastD rootName)

/-! ## Dot paths -/

/-- The text of a name, if it can be a part of a dot path. -/
def segmentText? (read : FileName.Reading) (name : FileName) : Option (List Char) :=
  (read name).filter Name.isSegment

/-- The texts of some segments, or the first that cannot be a part of a dot path. -/
def segmentTexts (read : FileName.Reading) : List FileName → Except FileName (List (List Char))
  | [] => .ok []
  | name :: names =>
      match segmentText? read name with
      | none => .error name
      | some text => (segmentTexts read names).map (text :: ·)

/-- The dot path of the file with this path, or its first segment that cannot be a part of
a dot path. -/
def dotPath (read : FileName.Reading) (path : List FileName) : Except FileName String :=
  (segmentTexts read (segments path)).map fun texts => String.ofList (Name.joinDots texts)

example : splitExtension? "x.tar.sql" = some (("x.tar" : FileName), ("sql" : FileName)) := by
  decide
example : splitExtension? ".sql" = none := by decide
example : segments ["v1.0", "x.sql"] = [("v1.0" : FileName), ("x" : FileName)] := by decide
example : dotPath FileName.text? ["users", "list.sql"] = .ok "users.list" := by rfl

end SqlTemplates.TemplateFile
