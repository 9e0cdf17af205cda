import IndexedStore.Json.Writer
import IndexedStore.People.Workload
import IndexedStore.Proofs.Cbor.Truncation
import IndexedStore.Proofs.Connection.BatchOrder
import IndexedStore.Proofs.Connection.EqualQueries
import IndexedStore.Proofs.People.Tracked
import IndexedStore.Proofs.Query.Clauses
import IndexedStore.Proofs.Query.EqualRows
import IndexedStore.Proofs.Row.Extensional
import IndexedStore.Proofs.Row.RoundTrip
import IndexedStore.Proofs.Storage.GeneratedKeys
import IndexedStore.Proofs.Storage.Holdings
import IndexedStore.Proofs.Storage.Removal
import IndexedStore.Proofs.Storage.ScanOrder
import IndexedStore.Proofs.Storage.Writers
import IndexedStore.Proofs.Value.Comparison
import IndexedStore.Session.Basic
import IndexedStore.Proofs.Schema.Changes
import IndexedStore.Proofs.Json.Scalars
import IndexedStore.Proofs.Json.ReadBack
