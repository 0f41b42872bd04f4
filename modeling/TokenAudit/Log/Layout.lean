import TokenAudit.Log.Event

/-!
# Log layouts

Three ways to write an event on one line: `compact` with the padded severity, the message and
`name=value` fields; `pretty` with the full component path and `name: value` fields; and `json` as
one object.  The two texts show terminal control characters of a message as escapes.
-/

namespace TokenAudit.Log

/-- How events are written. -/
inductive Layout where
  | compact
  | pretty
  | json
  deriving DecidableEq, Repr, Inhabited

/-- The layouts. -/
def Layout.all : List Layout := [.compact, .pretty, .json]

/-- The name of a layout. -/
def Layout.name : Layout → String
  | compact => "compact"
  | pretty => "pretty"
  | json => "json"

/-- The layout with a given name, if there is one. -/
def Layout.ofName? (s : String) : Option Layout := all.find? fun layout => layout.name == s

/-- The full path of the component that tells an event. -/
def Event.target (event : Event) : String :=
  match event.component? with
  | some component => "lexcheck::lex::" ++ component.path
  | none => "lexcheck"

/-- A character of a message as a terminal may safely show it. -/
def showControl (c : Char) : String :=
  match c with
  | '\x1b' => "\\x1b"
  | '\x07' => "\\x07"
  | '\x08' => "\\x08"
  | '\x0c' => "\\x0c"
  | '\x7f' => "\\x7f"
  | c => if 0x80 ≤ c.toNat && c.toNat ≤ 0x9F then Text.escapeCodePoint c else c.toString

/-- A message as a terminal may safely show it. -/
def showMessage (message : String) : String := String.join (message.toList.map showControl)

/-- A severity label, padded on the left to the width of the longest. -/
def paddedLabel (severity : Severity) : String :=
  String.ofList (List.replicate (5 - severity.label.length) ' ') ++ severity.label

/-- An event in the compact layout. -/
def Event.compact (event : Event) : String :=
  paddedLabel event.severity ++ " " ++ showMessage event.message ++
    String.join (event.fields.map fun (name, value) => " " ++ name ++ "=" ++ value.render)

/-- An event in the pretty layout. -/
def Event.pretty (event : Event) : String :=
  event.severity.label ++ " " ++ event.target ++ ": " ++ showMessage event.message ++
    String.join (event.fields.map fun (name, value) => ", " ++ name ++ ": " ++ value.render)

/-- A character inside a JSON string. -/
def jsonChar (c : Char) : String :=
  match c with
  | '"' => "\\\""
  | '\\' => "\\\\"
  | '\x08' => "\\b"
  | '\x0c' => "\\f"
  | '\n' => "\\n"
  | '\r' => "\\r"
  | '\t' => "\\t"
  | c =>
    if c.toNat < 0x20 then
      "\\u00" ++ (if c.toNat < 0x10 then "0" else "") ++ Text.hex c.toNat
    else c.toString

/-- A JSON string. -/
def jsonString (s : String) : String := "\"" ++ String.join (s.toList.map jsonChar) ++ "\""

/-- A field value in JSON.  Numbers and flags are not quoted. -/
def Value.json : Value → String
  | text s => jsonString s
  | value => value.render

/-- An event as one JSON object. -/
def Event.json (event : Event) : String :=
  let fields := ("message", Value.text event.message) :: event.fields
  "\x7b\"level\":" ++ jsonString event.severity.label ++ ",\"fields\":\x7b" ++
    ",".intercalate (fields.map fun (name, value) => jsonString name ++ ":" ++ value.json) ++
    "\x7d,\"target\":" ++ jsonString event.target ++ "\x7d"

/-- An event in a layout. -/
def Layout.render : Layout → Event → String
  | compact, event => event.compact
  | pretty, event => event.pretty
  | json, event => event.json

end TokenAudit.Log
