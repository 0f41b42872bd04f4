import TokenAudit.Main
import TokenAudit.Proofs.FixedPoint
import TokenAudit.Proofs.LineComposition
import TokenAudit.Proofs.RunOutcome
import TokenAudit.Stream
import TokenAudit.Proofs.AllOrNothing
import TokenAudit.Proofs.TraceIndependence
import TokenAudit.Proofs.ScanStates
import TokenAudit.Proofs.ValidationLog
import TokenAudit.Proofs.Revalidation
import TokenAudit.Proofs.LineEndings
import TokenAudit.Proofs.Tiling
import TokenAudit.Proofs.LongestMatch
import TokenAudit.Proofs.TokenPlaces
import TokenAudit.Proofs.Sessions
import TokenAudit.Proofs.ArtifactReading
import TokenAudit.Proofs.Boundaries
import TokenAudit.Proofs.Watching
import TokenAudit.Proofs.ScriptSessions
import TokenAudit.Proofs.TraceWriting
import TokenAudit.Proofs.Decisions
import TokenAudit.Proofs.SuccessiveRuns
import TokenAudit.Proofs.TraceReading
import TokenAudit.Proofs.ScriptLog
import TokenAudit.Proofs.PullBounds
import TokenAudit.Proofs.WordOffsets
import TokenAudit.Proofs.OverrideLayers
import TokenAudit.Proofs.Places
