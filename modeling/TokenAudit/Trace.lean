import TokenAudit.Log.Logged
import TokenAudit.Text.Utf8

/-!
# Diagnostic traces

While a stream is validated, every accepted token is recorded in a sink: nowhere, as a list of
lines, or as lines written to a byte writer.  The trace has no say in the verdict.  A trace writer
whose writer fails tells so once and is silent from then on, even if the writer recovers.
-/

namespace TokenAudit

/-- Something that takes a record of accepted tokens. -/
class TokenSink (κ : Type) where
  /-- Records one token. -/
  record : κ → Token → Logged κ

/-- A sink that keeps nothing. -/
structure NoTrace where
  deriving DecidableEq, Repr

instance : TokenSink NoTrace where
  record sink _ := pure sink

/-- A sink that keeps the diagnostic lines. -/
structure TraceLines where
  lines : Array String := #[]
  deriving DecidableEq, Repr

instance : TokenSink TraceLines where
  record sink token := pure ⟨sink.lines.push token.render⟩

/-- A writer that stores bytes as long as there is room.  The write that does not fit stores what
still fits and fails.  After a failure a recovering writer takes everything, any other one
nothing. -/
structure ByteWriter where
  /-- The number of bytes that still fit.  Without a number there is no limit. -/
  room : Option Nat := none
  recovers : Bool := false
  written : ByteArray := .empty
  /-- The number of failed writes. -/
  failures : Nat := 0

namespace ByteWriter

/-- How a full writer explains its failure. -/
def fullMessage : String := "closed"

/-- Writes bytes, all of them or as many as fit.  Writing no bytes never fails. -/
def write (w : ByteWriter) (bytes : ByteArray) : Except String Unit × ByteWriter :=
  match w.room with
  | none => (.ok (), { w with written := w.written ++ bytes })
  | some room =>
    if bytes.size ≤ room then
      (.ok (), { w with written := w.written ++ bytes, room := some (room - bytes.size) })
    else
      (.error fullMessage,
        { w with
          written := w.written ++ bytes.extract 0 room
          room := if w.recovers then none else some 0
          failures := w.failures + 1 })

/-- Writes pieces in order, up to the first that fails. -/
def writeAll (w : ByteWriter) : List String → Except String Unit × ByteWriter
  | [] => (.ok (), w)
  | piece :: pieces =>
    match w.write piece.toUTF8 with
    | (.ok (), w) => writeAll w pieces
    | (.error reason, w) => (.error reason, w)

end ByteWriter

/-- The pieces in which the diagnostic line of a token is written, with its line feed. -/
def Token.linePieces (t : Token) : List String :=
  ["[", t.position.line.repr, ",", t.position.column.repr, "]:", t.text, "\n"]

/-- A sink that writes diagnostic lines until its writer fails. -/
structure TraceWriter where
  writer : ByteWriter := {}
  stopped : Bool := false

/-- Writes the line of one token.  The first failure is told and stops the trace. -/
def TraceWriter.record (sink : TraceWriter) (token : Token) : Logged TraceWriter := do
  if sink.stopped then
    return sink
  else
    match sink.writer.writeAll token.linePieces with
    | (.ok (), writer) => return { sink with writer }
    | (.error reason, writer) =>
      Logged.tell (.traceDisabled reason)
      return { writer, stopped := true }

instance : TokenSink TraceWriter where
  record := TraceWriter.record

/-- Records tokens in order. -/
def TokenSink.recordAll {κ : Type} [TokenSink κ] (sink : κ) : List Token → Logged κ
  | [] => pure sink
  | token :: tokens => do
    let sink ← TokenSink.record sink token
    recordAll sink tokens

end TokenAudit
