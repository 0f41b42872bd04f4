import TokenAudit.Decimal.Digits
import TokenAudit.Settings.Value

/-!
# Setting keys

A key is a name followed by steps: a dot and a name, or an index in brackets.  Names are made of
ASCII letters, digits, `_`, `-` and spaces.  `Key.parse` reads a key, and `Key.assign` stores a
value at the end of its way, making the tables and lists it needs.
-/

namespace TokenAudit.Settings

/-- One step from a value into its parts. -/
inductive Step where
  | field (name : String)
  | item (index : Int)
  deriving DecidableEq, Repr

/-- The way from the root table to a setting. -/
structure Key where
  name : String
  steps : List Step
  deriving DecidableEq, Repr

/-- Why a text is no key. -/
inductive KeyFault where
  /-- A name was expected. -/
  | name
  /-- A digit was expected. -/
  | digit
  /-- An index does not fit in 64 bits. -/
  | range
  /-- A certain character was expected. -/
  | character
  deriving DecidableEq, Repr

namespace Key

/-- A character of a name. -/
def isNamePart (c : Char) : Bool :=
  ('a' ≤ c && c ≤ 'z') || ('A' ≤ c && c ≤ 'Z') || ('0' ≤ c && c ≤ '9') ||
    c == '_' || c == '-' || c == ' '

/-- Blanks that may stand around an index. -/
def isIndexBlank (c : Char) : Bool := c == ' ' || c == '\t'

/-- Reads an index behind its opening bracket, through the closing one. -/
def parseIndex (text : List Char) : Except KeyFault (Int × List Char) :=
  let text := text.dropWhile isIndexBlank
  let negative := text.head? == some '-'
  let text := if negative then text.drop 1 else text
  let digits := text.takeWhile Decimal.isDigit
  let value : Int := if negative then -(Decimal.value digits) else Decimal.value digits
  if digits = [] then .error .digit
  else if value < -Int.pow 2 63 ∨ Int.pow 2 63 ≤ value then .error .range
  else match (text.dropWhile Decimal.isDigit).dropWhile isIndexBlank with
    | ']' :: rest => .ok (value, rest)
    | _ => .error .character

/-- Reads the steps behind the first name.  There are at most as many as characters. -/
def parseSteps : Nat → List Char → Except KeyFault (List Step)
  | _, [] => .ok []
  | 0, _ => .error .character
  | n + 1, '.' :: text =>
    match text.takeWhile isNamePart with
    | [] => .error .character
    | name => do
      let steps ← parseSteps n (text.dropWhile isNamePart)
      return .field (String.ofList name) :: steps
  | n + 1, '[' :: text => do
    let (index, rest) ← parseIndex text
    let steps ← parseSteps n rest
    return .item index :: steps
  | _, _ => .error .character

/-- Reads a key. -/
def parse (text : String) : Except KeyFault Key :=
  let cs := text.toList
  match cs.takeWhile isNamePart with
  | [] => .error .name
  | name => do
    let steps ← parseSteps cs.length (cs.dropWhile isNamePart)
    return ⟨String.ofList name, steps⟩

/-- The place of an index in a list of a given length.  A negative index counts from the end and
must not go past the front. -/
def position? (index : Int) (length : Nat) : Option Nat :=
  if 0 ≤ index then some index.toNat
  else if index.natAbs ≤ length then some (length - index.natAbs) else none

/-- Stores a value at the end of a way into a value.  What is in the way and no table, or no list
where an index needs one, gives way to an empty one. -/
def assignAt (v : Value) : List Step → Value → Value
  | [], value => value
  | [.field name], value => v.put name value
  | .field name :: steps, value =>
    let name := Text.lowerCase name
    v.setField name (assignAt ((v.field? name).getD .nothing) steps value)
  | .item index :: steps, value =>
    match position? index v.items.length with
    | none => v
    | some i => v.setItem i (assignAt (v.items[i]?.getD .nothing) steps value)

/-- Stores a value under a key of the root table. -/
def assign (root : Value) (key : Key) (value : Value) : Value :=
  assignAt root (.field key.name :: key.steps) value

end Key

end TokenAudit.Settings
