import TokenAudit.Scan
import TokenAudit.Script

/-!
# Token streams of either kind

A stream is a scan of a text or a script.  It behaves as the source it holds.
-/

namespace TokenAudit

/-- A scan or a script. -/
inductive Stream where
  | scan (scan : Scan)
  | script (script : Script)
  deriving DecidableEq, Repr

namespace Stream

/-- One pull of the source inside. -/
def pull : Stream → Logged (Except Fault Token × Stream)
  | scan inner => do
    let (answer, after) ← TokenSource.pull inner
    return (answer, scan after)
  | script inner => do
    let (answer, after) ← TokenSource.pull inner
    return (answer, script after)

/-- Closes the source inside. -/
def close : Stream → Stream
  | scan inner => scan (TokenSource.close inner)
  | script inner => script (TokenSource.close inner)

/-- The position of the source inside. -/
def position : Stream → Position
  | scan inner => TokenSource.position inner
  | script inner => TokenSource.position inner

/-- The bound of the source inside. -/
def remaining : Stream → Nat
  | scan inner => FiniteSource.remaining inner
  | script inner => FiniteSource.remaining inner

instance : TokenSource Stream where
  pull := pull
  close := close
  position := position

instance : FiniteSource Stream where
  remaining := remaining
  remaining_next
    | scan inner, h => FiniteSource.remaining_next inner h
    | script inner, h => FiniteSource.remaining_next inner h

end Stream

end TokenAudit
