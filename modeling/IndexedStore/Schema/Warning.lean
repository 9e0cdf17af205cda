/-
This file lists what is worth a warning: things that are likely mistakes but stop
nothing.
-/

namespace IndexedStore

/-- A likely mistake. -/
inductive Warning where
  /-- The key column stands among the other columns, where it has no effect. -/
  | keyListedAsColumn (table column : String)
  /-- A column stands more than once; the first one counts. -/
  | columnRepeated (table column : String)
  /-- A column asks for other options than its index was created with. -/
  | optionsChanged (table column : String)
  /-- A row that was to be deleted has no key. -/
  | rowWithoutKey (table : String)
deriving DecidableEq

namespace Warning

/-- The text of a warning. -/
def message : Warning → String
  | keyListedAsColumn _ _ => "key column is also listed as a column"
  | columnRepeated _ _ => "column is listed more than once"
  | optionsChanged _ _ => "index options changed; keeping the stored index"
  | rowWithoutKey _ => "matched row has no key, skipping"

/-- The table that a warning is about. -/
def table : Warning → String
  | keyListedAsColumn table _ | columnRepeated table _ | optionsChanged table _ => table
  | rowWithoutKey table => table

/-- The column that a warning is about, if it is about one. -/
def column? : Warning → Option String
  | keyListedAsColumn _ column | columnRepeated _ column | optionsChanged _ column => some column
  | rowWithoutKey _ => none

end Warning

end IndexedStore
