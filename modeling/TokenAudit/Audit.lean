import TokenAudit.Artifact
import TokenAudit.FileSystem.Temporary
import TokenAudit.Scan
import TokenAudit.Settings.Basic
import TokenAudit.Validation

/-!
# Audits

An audit is one run: it reads the input, scans and validates it and leaves exactly one artifact at
the output.  An input that cannot be read leaves the failure marker too, and the fault is reported
after that.  Only an artifact that cannot be put in place leaves the file system as it was, and that
failure is reported before any fault.

The steps that touch files come in two parts, so that they can also be taken on real files: what is
done with the bytes of an input, and what is told once the artifact is in place.
-/

namespace TokenAudit

/-- The text of an input. -/
structure Source where
  text : String
  /-- The path from which it was read. -/
  path : String
  deriving DecidableEq, Repr

namespace Source

/-- The source in the bytes that reading a path gave. -/
def ofBytes (path : String) (read : Except IoError ByteArray) : Logged (Except Fault Source) :=
  match read with
  | .error cause => return .error (.unreadable path cause)
  | .ok bytes =>
    match String.fromUTF8? bytes with
    | none => return .error (.notUtf8 path)
    | some text => do
      Logged.tell (.loaded path text.utf8ByteSize)
      return .ok { text, path }

/-- Reads a source. -/
def load (fs : FileSystem) (path : String) : Logged (Except Fault Source) :=
  ofBytes path (fs.read path)

end Source

/-- Puts an artifact at a path: as a temporary file beside it, which is then renamed.  Whatever fails
once the temporary file is there, the file is taken away again. -/
def Artifact.writeTo (artifact : Artifact) (fs : FileSystem) (path : String) :
    Except ArtifactError Unit × FileSystem :=
  let directory := Path.directory path
  match fs.createTemporary directory with
  | .error cause => (.error (.write path cause), fs)
  | .ok (temporary, created) =>
    match created.fill temporary artifact.contents.toUTF8 with
    | .error refusal =>
      (.error (.write path (.temporary refusal (fs.temporaryPath directory))),
        created.erase temporary)
    | .ok filled =>
      match filled.rename temporary path with
      | .error cause => (.error (.replace path cause), filled.erase temporary)
      | .ok replaced => (.ok (), replaced)

/-- What is told of an artifact in its place. -/
def Artifact.event (artifact : Artifact) (path : String) : Log.Event :=
  .artifactWritten path artifact.contents.utf8ByteSize artifact.isFailure

/-- Why an audit failed. -/
inductive AuditError where
  | scan (fault : Fault)
  | write (error : ArtifactError)
  | settings (error : Settings.Error)

namespace AuditError

/-- The wording of a failed audit. -/
def message : AuditError → String
  | scan fault => fault.message
  | write error => error.message
  | settings error => "configuration error: " ++ error.message

/-- The wording of the failure behind it, if there is one. -/
def cause? : AuditError → Option String
  | scan fault => fault.cause?.map IoError.message
  | write error => some error.cause.message
  | settings error => some error.message

/-- The exit status of a failed audit. -/
def exitCode (_ : AuditError) : Nat := 2

end AuditError

namespace Audit

variable {κ : Type} [TokenSink κ]

/-- The artifact that a validation leaves. -/
def artifactOf : Except Fault Verdict → Artifact
  | .ok verdict => .ofVerdict verdict
  | .error _ => .failure

/-- What is told before the artifact is written. -/
def announce : Except Fault Verdict → List Log.Event
  | .ok _ => []
  | .error fault => [.inputFault fault]

/-- What is reported, with what is told, once the artifact was written or not. -/
def conclude (result : Except Fault Verdict) (output : String)
    (written : Except ArtifactError Unit) : Logged (Except AuditError Outcome) :=
  match written with
  | .error error => return .error (.write error)
  | .ok () => do
    Logged.tell ((artifactOf result).event output)
    match result with
    | .error fault => return .error (.scan fault)
    | .ok verdict =>
      Logged.tell (.runComplete verdict.outcome output)
      return .ok verdict.outcome

/-- Writes the artifact of a validation and reports. -/
def finish (result : Except Fault Verdict) (fs : FileSystem) (output : String) :
    Logged (Except AuditError Outcome × FileSystem) :=
  let (written, files) := (artifactOf result).writeTo fs output
  let report := conclude result output written
  ⟨(report.value, files), announce result ++ report.events⟩

/-- Scans and validates a source. -/
def validate (source : Source) (sink : κ) : Logged (Except Fault Verdict × κ) := do
  Logged.tell (.validating source.path)
  let scan ← Scan.start source.text.toList
  let finished ← Validation.consume scan sink
  return (finished.result, finished.sink)

/-- Validates what reading an input gave. -/
def validateRead (loaded : Except Fault Source) (sink : κ) :
    Logged (Except Fault Verdict × κ) :=
  match loaded with
  | .error fault => return (.error fault, sink)
  | .ok source => validate source sink

/-- What an audit leaves behind. -/
structure Report (κ : Type) where
  result : Except AuditError Outcome
  files : FileSystem
  sink : κ

/-- Audits an input with a given sink. -/
def runWithSink (fs : FileSystem) (input output : String) (sink : κ) : Logged (Report κ) := do
  let loaded ← Source.load fs input
  let (verdict, sink) ← validateRead loaded sink
  let (result, files) ← finish verdict fs output
  return { result, files, sink }

/-- The trace that the settings ask for.  An unwanted trace is stopped from the start. -/
def traceFor (settings : Settings) : TraceWriter :=
  { writer := {}, stopped := !settings.traceEnabled }

/-- Audits an input.  The trace goes to the standard output if the settings ask for it. -/
def run (settings : Settings) (fs : FileSystem) (input output : String) :
    Logged (Report TraceWriter) :=
  runWithSink fs input output (traceFor settings)

/-- What an audit printed on the standard output. -/
def Report.stdout (report : Report TraceWriter) : ByteArray := report.sink.writer.written

end Audit

end TokenAudit
