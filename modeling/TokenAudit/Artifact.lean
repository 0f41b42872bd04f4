import TokenAudit.Listing

/-!
# Artifacts

An artifact is what a run leaves at its output: the canonical listing of an accepted stream, or the
failure marker.
-/

namespace TokenAudit

/-- What a run leaves at its output. -/
inductive Artifact where
  | listing (texts : Listing)
  | failure
  deriving DecidableEq, Repr

namespace Artifact

/-- The text that marks a failure. -/
def failureMarker : String := "ERROR"

/-- The artifact of a verdict. -/
def ofVerdict : Verdict → Artifact
  | .accepted texts => .listing texts
  | .rejected => .failure

/-- The text of an artifact. -/
def contents : Artifact → String
  | listing texts => texts.render
  | failure => failureMarker

/-- Whether an artifact is the failure marker.  A listing that reads like the marker is not. -/
def isFailure : Artifact → Bool
  | listing _ => false
  | failure => true

end Artifact

end TokenAudit
