import TraceProfile.Files.Tree
import TraceProfile.Main
import TraceProfile.Proofs.Assembly.Resolution
import TraceProfile.Proofs.Mapping.Interleaving
import TraceProfile.Proofs.Mapping.Turns
import TraceProfile.Proofs.Mapping.Merge
import TraceProfile.Proofs.Mapping.Survival
import TraceProfile.Proofs.Marker.Pairing
import TraceProfile.Proofs.StableOrder
import TraceProfile.Proofs.Marker.Routing
import TraceProfile.Proofs.Stack.Index
import TraceProfile.Proofs.Profile.FieldNames
import TraceProfile.Proofs.Profile.Layout
import TraceProfile.Proofs.Assembly.Markers
import TraceProfile.Proofs.Assembly.MarkerLayout
import TraceProfile.Proofs.Marker.Losses
import TraceProfile.Proofs.Json.Distinct
import TraceProfile.Proofs.Json.Nesting
import TraceProfile.Proofs.Marker.FieldNames
import TraceProfile.Proofs.Assembly.Export
import TraceProfile.Proofs.Assembly.Accounting
import TraceProfile.Proofs.Assembly.Caching
import TraceProfile.Proofs.Counter.Agreement
import TraceProfile.Proofs.Profile.Ledger
import TraceProfile.Proofs.Profile.Reflection
import TraceProfile.Proofs.Profile.References
import TraceProfile.Proofs.Mapping.Keys
import TraceProfile.Proofs.Marker.Statistics
import TraceProfile.Proofs.SymbolMap
import TraceProfile.Proofs.Profile.Intact
import TraceProfile.Proofs.SymbolMap.Lines
import TraceProfile.Proofs.Counter.Document
import TraceProfile.Proofs.Counter.Lines
import TraceProfile.Proofs.Assembly.LogFlush
import TraceProfile.Proofs.Marker.Duration
import TraceProfile.Proofs.Marker.Action
import TraceProfile.Proofs.Assembly.Graphs
import TraceProfile.Proofs.Profile.Interning
