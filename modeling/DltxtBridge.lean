import DltxtBridge.SimilarityIndex.History
import DltxtBridge.Protocol.RoundTrip
import DltxtBridge.Protocol.LocalSession
import DltxtBridge.Protocol.ResponseDelivery
import DltxtBridge.Protocol.Replies
import DltxtBridge.Documents.Replica
import DltxtBridge.Documents.Edit
import DltxtBridge.Crossref.Refinement
import DltxtBridge.Crossref.Generations
import DltxtBridge.Crossref.RebuildRace
import DltxtBridge.Crossref.OpenDocument
import DltxtBridge.Crossref.SearchLine
import DltxtBridge.Crossref.SearchWait
import DltxtBridge.Crossref.Reconfigure
import DltxtBridge.Crossref.Scan
import DltxtBridge.Crossref.SearchJson
import DltxtBridge.Crossref.MoreResults
import DltxtBridge.Crossref.Exclusion
import DltxtBridge.Crossref.OpenByUri
import DltxtBridge.Documents.ChangeList
import DltxtBridge.Protocol.RangedChanges
import DltxtBridge.SimilarityIndex.ParallelScoring
import DltxtBridge.Crossref.Wildcard
import DltxtBridge.Crossref.Containment
import DltxtBridge.Crossref.Escaping
import DltxtBridge.Crossref.Pruning
import DltxtBridge.Crossref.UnrelatedRules
import DltxtBridge.Documents.UriRoundTrip
import DltxtBridge.Protocol.Utf8Boundary
import DltxtBridge.TextParser.Blocks
import DltxtBridge.TextParser.Reassembly
import DltxtBridge.Protocol.ContentLength
import DltxtBridge.Protocol.Chunking
import DltxtBridge.Protocol.RequestIds
import DltxtBridge.Protocol.LocalInputQueue
import DltxtBridge.Protocol.SessionManager
import DltxtBridge.Protocol.SendRequest
import DltxtBridge.Protocol.Cancellation
import DltxtBridge.Protocol.FailedWrites
import DltxtBridge.Crossref.IncrementalRebuild
import DltxtBridge.Protocol.IndexReady
import DltxtBridge.Protocol.Progress
import DltxtBridge.Crossref.SearchRun
import DltxtBridge.Protocol.Process
import DltxtBridge.Crossref.SearchProgress
import DltxtBridge.Protocol.SimilarText
