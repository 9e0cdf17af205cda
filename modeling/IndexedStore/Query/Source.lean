/-
This file defines the forms in which a query is given: built by hand, as a map value,
or as JSON text. The latter two have to be read, and may be rejected.
-/

import IndexedStore.Query.Basic

namespace IndexedStore

/-- A query as it is given. -/
inductive QuerySource where
  | built (query : Query)
  | value (value : Value)
  | text (text : String)

/-- Why a query is rejected. -/
inductive QueryRejection where
  /-- The text is not JSON, or not the JSON of a query. -/
  | text (cause : Json.ReadError)
  /-- The value is not a map. -/
  | value (cause : CodecError)

/-- Reads a query. -/
def QuerySource.read : QuerySource → Except QueryRejection Query
  | built query => .ok query
  | value content => (Query.ofValue content).mapError .value
  | text content => (Query.readJson content).mapError .text

end IndexedStore
