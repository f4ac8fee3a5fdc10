import GraphBase.Graph.Direct
import GraphBase.Main
import GraphBase.Proofs.Connection.Site
import GraphBase.Proofs.Storage.Numbered
import GraphBase.Proofs.Storage.Sessions
import GraphBase.Proofs.Storage.Views
import GraphBase.Proofs.Traversal.WalkRows
import GraphBase.Proofs.Triplets.Refinement
import GraphBase.Proofs.Triplets.Interleaving
import GraphBase.Proofs.Triplets.Traversal
import GraphBase.Sql.DepthQuery
import GraphBase.Proofs.Traversal.Counting
import GraphBase.Proofs.Traversal.Chains
import GraphBase.Proofs.Triplets.RelMaps
import GraphBase.Proofs.Json.Numerals
import GraphBase.Proofs.Json.RoundTrip
import GraphBase.Proofs.Number.Rounding
import GraphBase.Proofs.Number.Shortest
import GraphBase.Proofs.Json.Range
import GraphBase.Proofs.Value.Stored
import GraphBase.Proofs.Graph.WellFormed
import GraphBase.Proofs.Graph.Sessions
import GraphBase.Proofs.Graph.Opened
import GraphBase.Proofs.Graph.Runs
import GraphBase.Proofs.Graph.Traversal
import GraphBase.Proofs.Traversal.Cutting
import GraphBase.Proofs.Graph.RelMaps
import GraphBase.Proofs.Value.Matching
import GraphBase.Proofs.Graph.Deleting
import GraphBase.Proofs.Graph.Deletion
import GraphBase.Proofs.Value.Equality
import GraphBase.Proofs.Graph.Selecting
import GraphBase.Proofs.Graph.Composition
import GraphBase.Proofs.Graph.Writing
import GraphBase.Proofs.Graph.Linking
import GraphBase.Proofs.Graph.Loading
import GraphBase.Proofs.Graph.LoadingOrder
import GraphBase.Proofs.Graph.Effects
import GraphBase.Proofs.Graph.Consistency
import GraphBase.Proofs.Graph.Written
import GraphBase.Proofs.Graph.Placeholders
import GraphBase.Proofs.Graph.Texts
import GraphBase.Proofs.Graph.Embeddings
import GraphBase.Proofs.Graph.RoundTrip
import GraphBase.Proofs.Graph.Retrieval
import GraphBase.Proofs.Connection.Undoing
import GraphBase.Proofs.Connection.Reopening
import GraphBase.Proofs.Connection.Turns
import GraphBase.Proofs.Connection.Recycling
import GraphBase.Proofs.Undoing
import GraphBase.Proofs.Recycling
import GraphBase.Proofs.Limits
import GraphBase.Proofs.Graph.Overwriting
import GraphBase.Proofs.Value.Order
import GraphBase.Proofs.Graph.Inheriting
import GraphBase.Proofs.Graph.Neighbours
import GraphBase.Proofs.Graph.Arrivals
import GraphBase.Proofs.Value.Agreement
import GraphBase.Proofs.Graph.Finding
import GraphBase.Proofs.Json.Labels
import GraphBase.Proofs.Value.Keys
import GraphBase.Proofs.Graph.Addressing
import GraphBase.Proofs.Connection.Spellings
import GraphBase.Proofs.Value.Literals
import GraphBase.Proofs.Graph.Documents
import GraphBase.Proofs.Storage.Times
import GraphBase.Proofs.Graph.Times
import GraphBase.Triplets.Direct
import GraphBase.Proofs.Times
