import TokenAudit.Lexeme.Cursor
import TokenAudit.LineTable
import TokenAudit.TokenSource

/-!
# Scans

A scan turns a text into tokens, one a pull.  Unclassified lexemes and unclosed comments become
error tokens, after which the scan goes on.  When no lexeme is left, the scan answers the end of the
stream at the end of the text, now and ever after.  Closing a scan gives up the rest of the text.
-/

namespace TokenAudit

/-- A scan of a text. -/
structure Scan where
  /-- The whole text. -/
  text : List Char
  /-- The line starts of the text. -/
  table : LineTable
  /-- The place reached, until the scan is exhausted or closed. -/
  cursor? : Option Cursor
  /-- The end of the text. -/
  stop : Position
  /-- The position of the token pulled last. -/
  position : Position := .start
  deriving DecidableEq, Repr

/-- The token of a lexeme at a position.  A lexeme of a kind with a fixed spelling takes it over. -/
def Lexeme.token (lexeme : Lexeme) (position : Position) : Token :=
  match lexeme.kind? with
  | none | some .error => .error (String.ofList lexeme.letters) position
  | some kind => ⟨kind, kind.spelling?.getD (String.ofList lexeme.letters), position⟩

namespace Scan

/-- Starts to scan a text. -/
def ofText (text : List Char) : Scan :=
  let table := LineTable.ofText text
  { text, table, cursor? := some (.ofText text),
    stop := table.positionAt text (Text.byteLength text) }

/-- Starts to scan a text and tells of it. -/
def start (text : List Char) : Logged Scan := do
  let scan := ofText text
  Logged.tell (.scanReady (Text.byteLength text) scan.table.lineCount scan.stop)
  return scan

/-- Nothing is left to scan. -/
def isExhausted (scan : Scan) : Bool := scan.cursor?.isNone

/-- Gives up the rest of the text. -/
def close (scan : Scan) : Scan := { scan with cursor? := none }

/-- The scan after its last token. -/
def atEnd (scan : Scan) : Scan := { scan with cursor? := none, position := scan.stop }

/-- The position of a lexeme in the text. -/
def positionOf (scan : Scan) (lexeme : PlacedLexeme) : Position :=
  scan.table.positionAt scan.text lexeme.start

/-- The next token and the scan after it. -/
def pull (scan : Scan) : Logged (Except Fault Token × Scan) :=
  match scan.cursor? with
  | none => pure (.ok (.eof scan.stop), scan.atEnd)
  | some cursor =>
    match cursor.next? with
    | none => do
      Logged.tell (.scanEnded scan.stop)
      return (.ok (.eof scan.stop), scan.atEnd)
    | some (placed, after) => do
      let position := scan.positionOf placed
      let token := placed.lexeme.token position
      Logged.tell (.scanned token)
      return (.ok token, { scan with cursor? := some after, position })

/-- The characters that the scan has not looked at. -/
def ahead (scan : Scan) : List Char :=
  match scan.cursor? with
  | none => []
  | some cursor => cursor.ahead

instance : TokenSource Scan where
  pull := pull
  close := close
  position := position

/-- Pulling from an exhausted scan. -/
theorem value_pull_of_exhausted {scan : Scan} (h : scan.cursor? = none) :
    scan.pull.value = (.ok (.eof scan.stop), scan.atEnd) := by
  simp [pull, h]

/-- Pulling when no lexeme is left. -/
theorem value_pull_of_ended {scan : Scan} {cursor : Cursor} (h : scan.cursor? = some cursor)
    (hnext : cursor.next? = none) : scan.pull.value = (.ok (.eof scan.stop), scan.atEnd) := by
  simp [pull, h, hnext]

/-- Pulling the token of the next lexeme. -/
theorem value_pull_of_found {scan : Scan} {cursor after : Cursor} {placed : PlacedLexeme}
    (h : scan.cursor? = some cursor) (hnext : cursor.next? = some (placed, after)) :
    scan.pull.value = (.ok (placed.lexeme.token (scan.positionOf placed)),
      { scan with cursor? := some after, position := scan.positionOf placed }) := by
  simp [pull, h, hnext]

/-- A token before the end leaves fewer characters ahead. -/
theorem length_ahead_pull_lt {scan : Scan} (h : isLastAnswer scan.pull.value.1 = false) :
    scan.pull.value.2.ahead.length < scan.ahead.length := by
  cases hcursor : scan.cursor? with
  | none =>
    rw [value_pull_of_exhausted hcursor] at h
    cases h
  | some cursor =>
    cases hnext : cursor.next? with
    | none =>
      rw [value_pull_of_ended hcursor hnext] at h
      cases h
    | some found =>
      rw [value_pull_of_found hcursor hnext]
      simpa [ahead, hcursor] using Cursor.length_ahead_lt_of_next? hnext

instance : FiniteSource Scan where
  remaining scan := scan.ahead.length
  remaining_next _ h := length_ahead_pull_lt h

/-- The tokens from here on, through the first end of the stream. -/
def tokens (scan : Scan) : Logged (List Token) := do
  let answers ← FiniteSource.pullAll scan
  return answers.filterMap Except.toOption

end Scan

end TokenAudit
