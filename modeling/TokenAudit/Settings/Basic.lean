import TokenAudit.Log.Layout
import TokenAudit.Settings.Error

/-!
# Settings

The settings say whether the diagnostic trace is written, how much is logged and in which layout.
They are read from a root table: the defaults with overrides stored into it one after the other.  Of
two overrides for one key the last counts, and keys that name no setting are ignored.
-/

namespace TokenAudit

/-- The settings of a run. -/
structure Settings where
  /-- Whether the diagnostic trace goes to the standard output. -/
  traceEnabled : Bool
  /-- How much is logged. -/
  level : Log.Level
  /-- How it is logged. -/
  layout : Log.Layout
  deriving DecidableEq, Repr

namespace Settings

/-- The root table that holds the defaults. -/
def defaults : Value :=
  .table [
    ("trace", .table [("enabled", .flag true)]),
    ("logging", .table [("level", .text "warn"), ("format", .text "compact")])]

/-- The texts that stand for a set flag. -/
def trueTexts : List String := ["1", "true", "on", "yes"]

/-- The texts that stand for a cleared flag. -/
def falseTexts : List String := ["0", "false", "off", "no"]

/-- Reads a flag.  A number is set unless it is zero, and a text is read in lower case. -/
def readFlag (key : String) : Value → Except Error Bool
  | .flag b => .ok b
  | .integer n => .ok (n != 0)
  | .real x => .ok (x != 0)
  | .text s =>
    let lower := Text.lowerCase s
    if trueTexts.contains lower then .ok true
    else if falseTexts.contains lower then .ok false
    else .error (.notFlag (.text lower) key)
  | v => .error (.notFlag v key)

/-- Reads one of several names, which may be written in any case.  A table of a single field stands
for the name of that field. -/
def readName {α : Type} (choice : Choice) (ofName? : String → Option α) (v : Value) :
    Except Error α :=
  match v with
  | .text name | .table [(name, _)] =>
    match ofName? (Text.lowerCase name) with
    | some a => .ok a
    | none => .error (.unknownName choice name)
  | _ => .error (.notName choice)

/-- A member of a group: the key that leads to it and its value.  A list gives the members in
order. -/
def member (group : Group) (root : Value) (index : Nat) : Except Error (String × Value) :=
  match root.field? group.key with
  | none => .error (.missing group.key)
  | some (.table fields) =>
    let name := group.members[index]?.getD ""
    match fields.lookup name with
    | some v => .ok (group.key ++ "." ++ name, v)
    | none => .error (.missing name)
  | some (.list items) =>
    match items[index]? with
    | some v => .ok (group.key ++ "[" ++ index.repr ++ "]", v)
    | none => .error (.tooShort index group)
  | some v => .error (.notGroup v group)

/-- Reads the settings from a root table. -/
def ofValue (root : Value) : Except Error Settings := do
  let (key, flag) ← member .trace root 0
  let traceEnabled ← readFlag key flag
  let (_, name) ← member .logging root 0
  let level ← readName .level Log.Level.ofName? name
  let (_, name) ← member .logging root 1
  let layout ← readName .layout Log.Layout.ofName? name
  return { traceEnabled, level, layout }

/-- Values for keys, no key twice. -/
structure Overrides where
  assignments : List (Key × Value) := []

namespace Overrides

/-- Stores a value for a key, instead of an earlier one for the same key. -/
def setKey (overrides : Overrides) (key : Key) (value : Value) : Overrides :=
  if overrides.assignments.any (·.1 == key) then
    ⟨overrides.assignments.map fun entry => if entry.1 == key then (key, value) else entry⟩
  else ⟨overrides.assignments ++ [(key, value)]⟩

/-- Stores a value for a key that is given as a text. -/
def set (overrides : Overrides) (key : String) (value : Value) : Except Error Overrides :=
  match Key.parse key with
  | .ok key => .ok (overrides.setKey key value)
  | .error fault => .error (.malformedKey fault)

/-- The defaults with the values stored into them. -/
def apply (overrides : Overrides) : Value :=
  overrides.assignments.foldl (fun root (key, value) => key.assign root value) defaults

/-- The settings that result. -/
def build (overrides : Overrides) : Except Error Settings := ofValue overrides.apply

/-- Stores values for keys in order.  A failure comes with the index of the malformed key, counted
from a given number. -/
def setAll (overrides : Overrides) (first : Nat) :
    List (String × Value) → Except (Error × Nat) Overrides
  | [] => .ok overrides
  | (key, value) :: rest =>
    match overrides.set key value with
    | .ok overrides => overrides.setAll (first + 1) rest
    | .error error => .error (error, first)

end Overrides

/-- The settings with overrides.  A failure comes with the index of the override if its key is
malformed. -/
def load (overrides : List (String × Value)) : Except (Error × Option Nat) Settings :=
  match ({} : Overrides).setAll 0 overrides with
  | .error (error, index) => .error (error, some index)
  | .ok stored =>
    match stored.build with
    | .ok settings => .ok settings
    | .error error => .error (error, none)

/-- The settings without overrides. -/
def standard : Settings := { traceEnabled := true, level := .warn, layout := .compact }

/-- The standard settings are what the defaults say. -/
theorem load_nil : load [] = .ok standard := rfl

end Settings

end TokenAudit
