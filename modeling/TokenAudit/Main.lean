import TokenAudit.CommandLine.Run

/-!
# The command

The outer layer of the command: it reads and writes real files and the standard streams.  What is
read and written is decided elsewhere.
-/

namespace TokenAudit

/-- The error number in a reported code, which may come negated. -/
def OsError.ofCode (code : UInt32) : OsError :=
  ⟨if code.toNat < Nat.pow 2 31 then code.toNat else Nat.pow 2 32 - code.toNat⟩

/-- A refusal of the system as a cause. -/
def IoError.ofSystem : IO.Error → IoError
  | .noFileOrDirectory _ code _ | .interrupted _ code _ | .invalidArgument _ code _
  | .permissionDenied _ code _ | .resourceExhausted _ code _ | .inappropriateType _ code _
  | .alreadyExists _ code _ | .noSuchThing _ code _ | .otherError code _
  | .resourceBusy code _ | .resourceVanished code _ | .hardwareFault code _
  | .unsatisfiedConstraints code _ | .illegalOperation code _ | .protocolError code _
  | .timeExpired code _ | .unsupportedOperation code _ => .os (.ofCode code)
  | error => .other (toString error)

/-- Runs an action and catches the refusal of the system. -/
def attempt {α : Type} (action : IO α) : IO (Except IoError α) := do
  try
    return .ok (← action)
  catch error =>
    return .error (.ofSystem error)

/-- A random name for a temporary file. -/
def randomName : IO String := do
  let alphabet := "ABCDEFGHIJKLMNOPQRSTUVWXYZabcdefghijklmnopqrstuvwxyz0123456789".toList
  let mut name := ".tmp"
  for _ in [0:6] do
    let index ← IO.rand 0 (alphabet.length - 1)
    name := name.push (alphabet[index]?.getD 'x')
  return name

/-- The failure of a step on a temporary file. -/
def IoError.atTemporary (path : String) : IoError → IoError
  | .os refusal => .temporary refusal path
  | cause => cause

/-- Writes an artifact to a real file: a temporary file beside it is renamed over it.  Whatever fails
once the temporary file is there, the file is taken away again. -/
def Artifact.writeFile (artifact : Artifact) (path : String) :
    IO (Except ArtifactError Unit) := do
  let directory := Path.join (← IO.currentDir).toString (Path.directory path)
  let temporary := Path.join directory (← randomName)
  match ← attempt (IO.FS.Handle.mk temporary .writeNew) with
  | .error cause => return .error (.write path (cause.atTemporary temporary))
  | .ok handle =>
    let fill : IO Unit := do
      handle.putStr artifact.contents
      handle.flush
    match ← attempt fill with
    | .error cause =>
      discard <| attempt (IO.FS.removeFile temporary)
      return .error (.write path (cause.atTemporary temporary))
    | .ok () =>
      match ← attempt (IO.FS.rename temporary path) with
      | .ok () => return .ok ()
      | .error cause =>
        discard <| attempt (IO.FS.removeFile temporary)
        return .error (.replace path cause)

/-- Writes what a command prints. -/
def CommandLine.Printed.emit (printed : Printed) : IO UInt32 := do
  (← IO.getStdout).write printed.stdout
  (← IO.getStdout).flush
  (← IO.getStderr).putStr printed.stderr
  return printed.exitCode.toUInt32

/-- Audits a real input. -/
def CommandLine.auditFiles (input output : String) : IO UInt32 := do
  let bytes ← attempt (IO.FS.readBinFile input)
  let loaded := Source.ofBytes input bytes
  let validated := Audit.validateRead loaded.value (Audit.traceFor Settings.standard)
  let (verdict, sink) := validated.value
  let written ← (Audit.artifactOf verdict).writeFile output
  let report := Audit.conclude verdict output written
  let (exitCode, last) := CommandLine.exitOf report.value
  let events :=
    loaded.events ++ validated.events ++ Audit.announce verdict ++ report.events ++ last
  let stderr := CommandLine.logText events
  CommandLine.Printed.emit { exitCode, stdout := sink.writer.written, stderr }

end TokenAudit

open TokenAudit in
/-- Runs the command on its arguments. -/
def main (arguments : List String) : IO UInt32 :=
  match CommandLine.plan arguments with
  | .print printed => printed.emit
  | .audit input output => CommandLine.auditFiles input output
