import SqlTemplates.Engine

/-!
# Embedded texts

Templates can be built into a program as a table of paths and texts.  The table is
searched from its start, so the first of two rows with one path counts.
-/

namespace SqlTemplates

/-- A table of paths and texts. -/
structure Embedded where
  table : List (String × String)
deriving DecidableEq, Repr

namespace Embedded

/-- The paths of the table, in its order. -/
def names (store : Embedded) : List String := store.table.map Prod.fst

instance : Source Embedded where
  source store path :=
    match store.table.lookup path with
    | some text => .ok text
    | none => .error (.partialNotFound path)

end Embedded

end SqlTemplates
