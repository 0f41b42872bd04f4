import TokenAudit.Position
import TokenAudit.Text.Utf8

/-!
# Line tables

A line table holds the byte offset at which every line of a text starts.  It turns a byte offset
into a line by binary search and into a column by counting the characters from the start of the
line.  A line ends after its line feed.

`positionAt` computes with unbounded numbers.  `positionAt?` takes the same steps in 64-bit
arithmetic and gives no position as soon as one of them would leave that range.
-/

namespace TokenAudit

/-- The byte offsets of the line starts of a text, in increasing order. -/
structure LineTable where
  starts : Array Nat
  deriving DecidableEq, Repr

namespace LineTable

/-- The offsets just after the line feeds of a text that begins at a given offset. -/
def startsAfter (offset : Nat) : List Char → List Nat
  | [] => []
  | c :: rest =>
    if c = '\n' then (offset + 1) :: startsAfter (offset + 1) rest
    else startsAfter (offset + c.utf8Size) rest

/-- The table of a text.  The first line starts at offset 0. -/
def ofText (text : List Char) : LineTable := ⟨(0 :: startsAfter 0 text).toArray⟩

/-- The number of lines.  A text without a line feed has one. -/
def lineCount (t : LineTable) : Nat := t.starts.size

/-- The first index in a range of the table whose entry is not below an offset, or the end of the
range. -/
def lowerBound (starts : Array Nat) (offset low high : Nat) : Nat :=
  if low < high then
    let middle := low + (high - low) / 2
    if starts[middle]?.getD 0 < offset then lowerBound starts offset (middle + 1) high
    else lowerBound starts offset low middle
  else low
termination_by high - low

/-- The answer of a search in a sorted table. -/
inductive Found where
  /-- The value is the entry at this index. -/
  | present (index : Nat)
  /-- The value is absent, and this is the number of smaller entries. -/
  | absent (index : Nat)
  deriving DecidableEq, Repr

/-- Searches the table for an offset. -/
def search (t : LineTable) (offset : Nat) : Found :=
  let index := lowerBound t.starts offset 0 t.starts.size
  if t.starts[index]? = some offset then .present index else .absent index

/-- The zero-based line of an offset. -/
def lineIndex (t : LineTable) (offset : Nat) : Nat :=
  match t.search offset with
  | .present index => index
  | .absent index => index - 1

/-- The zero-based column of an offset on a line that begins at `start`: the characters between
them, or the bytes when these do not form a piece of the text. -/
def columnIndex (text : List Char) (start offset : Nat) : Nat :=
  match Text.slice? text start offset with
  | some piece => piece.length
  | none => offset - start

/-- The position of a byte offset of a text. -/
def positionAt (t : LineTable) (text : List Char) (offset : Nat) : Position :=
  let line := t.lineIndex offset
  ⟨line + 1, columnIndex text (t.starts[line]?.getD 0) offset + 1⟩

/-- Numbers from here on do not fit in a 64-bit word. -/
def wordLimit : Nat := Nat.pow 2 64

/-- Subtraction of words, unless the result would be negative. -/
def subWord? (a b : Nat) : Option Nat := if b ≤ a then some (a - b) else none

/-- Addition of words, unless the result would not fit. -/
def addWord? (a b : Nat) : Option Nat := if a + b < wordLimit then some (a + b) else none

/-- The position of a byte offset, computed with 64-bit words.  There is none if a subtraction
would be negative, an index would be outside the table or a sum would not fit. -/
def positionAt? (t : LineTable) (text : List Char) (offset : Nat) : Option Position := do
  let line ← match t.search offset with
    | .present index => some index
    | .absent index => subWord? index 1
  let start ← t.starts[line]?
  let column ← match Text.slice? text start offset with
    | some piece => some piece.length
    | none => subWord? offset start
  let line ← addWord? line 1
  let column ← addWord? column 1
  return ⟨line, column⟩

end LineTable

end TokenAudit
