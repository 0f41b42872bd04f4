import TokenAudit.Decimal.Shortest
import TokenAudit.Text.LowerCase
import TokenAudit.Text.Quoted

/-!
# Setting values

The values that settings are written with: nothing, flags, numbers, texts, lists and tables.  The
fields of a table are named in lower case.  `put` stores a value under a name of a table, and a
table that is stored is merged into what is there.
-/

namespace TokenAudit.Settings

/-- A value as it is written. -/
inductive Value where
  | nothing
  | flag (b : Bool)
  | integer (n : Int)
  | real (x : Float)
  | text (s : String)
  | list (items : List Value)
  | table (fields : List (String × Value))
  deriving Inhabited

namespace Value

/-- The fields of a table.  Other values have none. -/
def fields : Value → List (String × Value)
  | table fields => fields
  | _ => []

/-- The items of a list.  Other values have none. -/
def items : Value → List Value
  | list items => items
  | _ => []

/-- The field of a table with a given name. -/
def field? (v : Value) (name : String) : Option Value := v.fields.lookup name

/-- Sets one field of a table, in its place or at the end.  A value that is no table becomes one. -/
def setField (v : Value) (name : String) (value : Value) : Value :=
  if v.fields.any (·.1 == name) then
    table (v.fields.map fun entry => if entry.1 == name then (name, value) else entry)
  else table (v.fields ++ [(name, value)])

/-- Sets one item of a list.  A value that is no list becomes one, and a list that is too short is
filled up. -/
def setItem (v : Value) (index : Nat) (value : Value) : Value :=
  let filled := v.items ++ List.replicate (index + 1 - v.items.length) nothing
  list (filled.set index value)

mutual

/-- Stores a value under a name.  A table is merged field by field into the old value, any other
value takes the place of the old one. -/
def put (v : Value) (name : String) : Value → Value
  | table fields =>
    v.setField (Text.lowerCase name)
      (putAll ((v.field? (Text.lowerCase name)).getD (table [])) fields)
  | value => v.setField (Text.lowerCase name) value

/-- Stores fields one after the other. -/
def putAll (v : Value) : List (String × Value) → Value
  | [] => v
  | (name, value) :: rest => putAll (put v name value) rest

end

/-- How a value is called in a message about a wrong type. -/
def description : Value → String
  | nothing => "unit value"
  | flag b => "boolean \x60" ++ (if b then "true" else "false") ++ "\x60"
  | integer n => "integer \x60" ++ toString n ++ "\x60"
  | real x => "floating point \x60" ++ Decimal.ofFloat x ++ "\x60"
  | text s => "string " ++ Text.quoted s
  | list _ => "sequence"
  | table _ => "map"

end Value

end TokenAudit.Settings
