import TokenAudit.Audit
import TokenAudit.CommandLine.Arguments
import TokenAudit.Log.Logger

/-!
# Running the command

What the command prints and leaves behind.  The trace goes to the standard output and the log to the
standard error, and a failed audit is logged last.
-/

namespace TokenAudit.CommandLine

/-- What a run of the command prints, and its exit status. -/
structure Printed where
  exitCode : Nat
  stdout : ByteArray := .empty
  stderr : String := ""

/-- The logger of the command. -/
def logger : Log.Logger := ⟨Settings.standard.level, Settings.standard.layout⟩

/-- The exit status for wrong usage. -/
def usageExitCode : Nat := 2

/-- Events as the command logs them, a line each. -/
def logText (events : List Log.Event) : String :=
  String.join ((logger.lines events).map (· ++ "\n"))

/-- The exit status of a finished audit and the last thing told of it. -/
def exitOf : Except AuditError Outcome → Nat × List Log.Event
  | .ok outcome => (outcome.exitCode, [])
  | .error error => (error.exitCode, [.runFailed error.message])

/-- What a command line leads to: something to print, or an audit. -/
inductive Plan where
  | print (printed : Printed)
  | audit (input output : String)

/-- What is done about the arguments. -/
def plan (arguments : List String) : Plan :=
  match read arguments with
  | .error error => .print { exitCode := usageExitCode, stderr := error.message }
  | .ok .help => .print { exitCode := 0, stdout := helpText.toUTF8 }
  | .ok .version => .print { exitCode := 0, stdout := versionText.toUTF8 }
  | .ok (.audit input output) => .audit input output

/-- Runs the command on a file system. -/
def run (fs : FileSystem) (arguments : List String) : Printed × FileSystem :=
  match plan arguments with
  | .print printed => (printed, fs)
  | .audit input output =>
    let report := Audit.run Settings.standard fs input output
    let (exitCode, last) := exitOf report.value.result
    ({ exitCode, stdout := report.value.stdout, stderr := logText (report.events ++ last) },
      report.value.files)

end TokenAudit.CommandLine
