import TokenAudit.Failure
import TokenAudit.Listing
import TokenAudit.Token

/-!
# Log events

An event is something worth telling about a run.  Each event has a severity, the component that
tells it, a message and named fields.  A level lets through the events that are at least as severe.
-/

namespace TokenAudit.Log

/-- How much an event matters, from the most to the least. -/
inductive Severity where
  | error
  | warn
  | info
  | debug
  | trace
  deriving DecidableEq, Repr

namespace Severity

/-- The place in the order, the most severe first. -/
def rank : Severity → Nat
  | error => 1
  | warn => 2
  | info => 3
  | debug => 4
  | trace => 5

/-- The label of a severity. -/
def label : Severity → String
  | error => "ERROR"
  | warn => "WARN"
  | info => "INFO"
  | debug => "DEBUG"
  | trace => "TRACE"

end Severity

/-- The part of the program that tells an event. -/
inductive Component where
  | loading
  | scanning
  | validation
  | tracing
  | artifact
  | auditing
  deriving DecidableEq, Repr

/-- The path of a component below the program's own. -/
def Component.path : Component → String
  | loading => "loader"
  | scanning => "lexing::scanner"
  | validation => "validation"
  | tracing => "diagnostics"
  | artifact => "artifact"
  | auditing => "driver"

/-- The value of a field. -/
inductive Value where
  | text (s : String)
  | number (n : Nat)
  | flag (b : Bool)
  deriving DecidableEq, Repr

/-- A value as text. -/
def Value.render : Value → String
  | text s => s
  | number n => n.repr
  | flag b => if b then "true" else "false"

/-- Why a token stream was rejected. -/
inductive Rejection where
  /-- A lexical error came before the end of the stream. -/
  | lexicalError
  /-- Something other than the end came after the end of the stream. -/
  | trailingContent
  deriving DecidableEq, Repr

/-- The wording of a rejection. -/
def Rejection.message : Rejection → String
  | lexicalError => "lexical error"
  | trailingContent => "content after end of stream"

/-- What can be told about a run. -/
inductive Event where
  /-- A scan is about to start on a text of so many bytes and lines that ends at a position. -/
  | scanReady (bytes lines : Nat) (stop : Position)
  /-- The scan found a token. -/
  | scanned (token : Token)
  /-- The scan came to the end of the text. -/
  | scanEnded (stop : Position)
  /-- The validation got a token. -/
  | pulled (token : Token)
  /-- The validation recorded and listed a token. -/
  | tokenAccepted (token : Token)
  /-- The whole stream is accepted with so many tokens. -/
  | streamAccepted (tokens : Nat)
  /-- The stream is rejected at a token. -/
  | streamRejected (cause : Rejection) (token : Token)
  /-- The trace could not be written and stops. -/
  | traceDisabled (reason : String)
  /-- An input was read. -/
  | loaded (path : String) (bytes : Nat)
  /-- The validation of an input begins. -/
  | validating (path : String)
  /-- An artifact is in its place. -/
  | artifactWritten (path : String) (bytes : Nat) (failure : Bool)
  /-- The input failed, and the failure marker is written in place of a listing. -/
  | inputFault (fault : Fault)
  /-- A run is over and left its artifact. -/
  | runComplete (outcome : Outcome) (output : String)
  /-- A run failed. -/
  | runFailed (message : String)
  deriving DecidableEq, Repr

namespace Event

/-- The severity of an event. -/
def severity : Event → Severity
  | scanReady .. => .debug
  | scanned _ => .trace
  | scanEnded _ => .trace
  | pulled _ => .trace
  | tokenAccepted _ => .debug
  | streamAccepted _ => .info
  | streamRejected .. => .info
  | traceDisabled _ => .warn
  | loaded .. => .debug
  | validating _ => .debug
  | artifactWritten .. => .debug
  | inputFault _ => .warn
  | runComplete .. => .info
  | runFailed _ => .error

/-- The component that tells an event.  A failed run is told by the program itself. -/
def component? : Event → Option Component
  | scanReady .. | scanned _ | scanEnded _ => some .scanning
  | pulled _ | tokenAccepted _ | streamAccepted _ | streamRejected .. => some .validation
  | traceDisabled _ => some .tracing
  | loaded .. => some .loading
  | artifactWritten .. => some .artifact
  | validating _ | inputFault _ | runComplete .. => some .auditing
  | runFailed _ => none

/-- The message of an event. -/
def message : Event → String
  | scanReady _ _ stop => "scanner ready, input ends at " ++ stop.render
  | scanned token => "scanned " ++ token.render
  | scanEnded stop => "end of input at " ++ stop.render
  | pulled _ => "pulled"
  | tokenAccepted token => "accepted " ++ token.render
  | streamAccepted _ => "token stream accepted"
  | streamRejected cause _ => "token stream rejected: " ++ cause.message
  | traceDisabled reason => "diagnostic trace disabled after write failure: " ++ reason
  | loaded .. => "loaded source"
  | validating _ => "validating"
  | artifactWritten .. => "artifact written"
  | inputFault fault => "input fault, writing failure marker: " ++ fault.message
  | runComplete .. => "run complete"
  | runFailed message => message

/-- The fields that say which token an event is about. -/
def tokenFields (token : Token) : List (String × Value) :=
  [("kind", .text token.kind.name), ("line", .number token.position.line),
    ("column", .number token.position.column)]

/-- The fields of an event, in order. -/
def fields : Event → List (String × Value)
  | scanReady bytes lines _ => [("bytes", .number bytes), ("lines", .number lines)]
  | scanned token => [("kind", .text token.kind.name), ("code", .number token.kind.code)]
  | pulled token => tokenFields token
  | streamAccepted tokens => [("tokens", .number tokens)]
  | streamRejected _ token => tokenFields token
  | loaded path bytes => [("path", .text path), ("bytes", .number bytes)]
  | validating path => [("input", .text ("Some(" ++ Text.quotedPath path ++ ")"))]
  | artifactWritten path bytes failure =>
    [("path", .text path), ("bytes", .number bytes), ("failure", .flag failure)]
  | runComplete outcome output =>
    [("outcome", .text outcome.render), ("output", .text output)]
  | scanEnded _ | tokenAccepted _ | traceDisabled _ | inputFault _ | runFailed _ => []

end Event

/-- How much of the log is wanted. -/
inductive Level where
  | off
  | error
  | warn
  | info
  | debug
  | trace
  deriving DecidableEq, Repr, Inhabited

namespace Level

/-- The levels, the most silent first. -/
def all : List Level := [off, error, warn, info, debug, trace]

/-- The name of a level. -/
def name : Level → String
  | off => "off"
  | error => "error"
  | warn => "warn"
  | info => "info"
  | debug => "debug"
  | trace => "trace"

/-- The level with a given name, if there is one. -/
def ofName? (s : String) : Option Level := all.find? fun level => level.name == s

/-- The rank of the least severe events that a level lets through. -/
def rank : Level → Nat
  | off => 0
  | error => 1
  | warn => 2
  | info => 3
  | debug => 4
  | trace => 5

/-- A level lets an event through. -/
def admits (level : Level) (event : Event) : Bool := event.severity.rank ≤ level.rank

/-- The events that a level lets through, in order. -/
def select (level : Level) (events : List Event) : List Event := events.filter level.admits

end Level

end TokenAudit.Log
