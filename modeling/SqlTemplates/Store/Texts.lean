import SqlTemplates.Engine

/-!
# Texts in memory

The simplest store maps paths to texts.  Any text can be a path here, but a partial
tag can only ask for a dot path.
-/

namespace SqlTemplates

/-- Texts under paths. -/
structure Texts where
  texts : Std.ExtTreeMap String String := ∅

namespace Texts

/-- The texts of a list of paths, in turn, so that of two texts for one path the
later stays. -/
def ofList (items : List (String × String)) : Texts := ⟨.ofList items⟩

/-- Stores a text under a path. -/
def set (store : Texts) (path text : String) : Texts := ⟨store.texts.insert path text⟩

/-- Removes the text of a path. -/
def remove (store : Texts) (path : String) : Texts := ⟨store.texts.erase path⟩

/-- There is a text under the path. -/
def contains (store : Texts) (path : String) : Bool := store.texts.contains path

instance : Source Texts where
  source store path :=
    match store.texts[path]? with
    | some text => .ok text
    | none => .error (.partialNotFound path)

theorem source_set (store : Texts) (path text other : String) :
    source (store.set path text) other =
      if path = other then .ok text else source store other := by
  simp only [source, set, Std.ExtTreeMap.getElem?_insert]
  by_cases h : path = other <;> simp [h]

theorem source_remove (store : Texts) (path other : String) :
    source (store.remove path) other =
      if path = other then .error (.partialNotFound other) else source store other := by
  simp only [source, remove, Std.ExtTreeMap.getElem?_erase]
  by_cases h : path = other <;> simp [h]

end Texts

end SqlTemplates
