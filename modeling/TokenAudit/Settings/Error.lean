import TokenAudit.Settings.Key

/-!
# Settings errors

Why settings cannot be read: a key is malformed, or a value has the wrong form for its place.
-/

namespace TokenAudit.Settings

/-- The groups of settings. -/
inductive Group where
  | trace
  | logging
  deriving DecidableEq, Repr

namespace Group

/-- The key of a group in the root table. -/
def key : Group → String
  | trace => "trace"
  | logging => "logging"

/-- How a group is called in messages. -/
def typeName : Group → String
  | trace => "TraceConfig"
  | logging => "LoggingConfig"

/-- The settings of a group, in order. -/
def members : Group → List String
  | trace => ["enabled"]
  | logging => ["level", "format"]

end Group

/-- The settings with a fixed choice of names. -/
inductive Choice where
  | level
  | layout
  deriving DecidableEq, Repr

/-- How a choice is called in messages. -/
def Choice.typeName : Choice → String
  | level => "LogLevel"
  | layout => "LogFormat"

/-- Why settings cannot be read. -/
inductive Error where
  /-- A key is malformed. -/
  | malformedKey (fault : KeyFault)
  /-- A value that is no flag stands where a flag is needed. -/
  | notFlag (found : Value) (key : String)
  /-- A value that is no table stands where a group is needed. -/
  | notGroup (found : Value) (group : Group)
  /-- A list with so many items is too short for a group. -/
  | tooShort (length : Nat) (group : Group)
  /-- A group has no member of a certain name. -/
  | missing (name : String)
  /-- A name is not among the choices. -/
  | unknownName (choice : Choice) (name : String)
  /-- A value that is no name stands where a choice is needed. -/
  | notName (choice : Choice)
  /-- A property is not set. -/
  | notFound (property : String)
  /-- An error that comes with its own wording. -/
  | other (message : String)

/-- The wording of a malformed key. -/
def KeyFault.message : KeyFault → String
  | name => "IsA"
  | digit => "Digit"
  | range => "Map on Result"
  | character => "Char"

/-- The wording of an error. -/
def Error.message : Error → String
  | malformedKey fault => fault.message
  | notFlag found key =>
    "invalid type: " ++ found.description ++ ", expected a boolean for key \x60" ++ key ++ "\x60"
  | notGroup found group =>
    "invalid type: " ++ found.description ++ ", expected struct " ++ group.typeName
  | tooShort length group =>
    let count := group.members.length
    "invalid length " ++ length.repr ++ ", expected struct " ++ group.typeName ++ " with " ++
      count.repr ++ (if count = 1 then " element" else " elements")
  | missing name => "missing field \x60" ++ name ++ "\x60"
  | unknownName choice name =>
    "enum " ++ choice.typeName ++ " does not have variant constructor " ++ name
  | notName choice =>
    "value of enum " ++ choice.typeName ++
      " should be represented by either string or table with exactly one key"
  | notFound property => "configuration property " ++ Text.quoted property ++ " not found"
  | other message => message

end TokenAudit.Settings
