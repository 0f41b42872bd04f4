import TokenAudit.Text.Similarity

/-!
# Command-line arguments

The command takes two paths, the input and the output, and two options that print something about
the command instead of running it.  An argument that begins with a dash is an option, except a lone
dash; after `--` every argument is a path.  The first argument that is wrong or asks to print ends
the reading.
-/

namespace TokenAudit.CommandLine

/-- What a command line asks for. -/
inductive Request where
  | audit (input output : String)
  | help
  | version
  deriving DecidableEq, Repr

/-- The arguments that name a path. -/
inductive Slot where
  | input
  | output
  deriving DecidableEq, Repr

/-- How a slot is written. -/
def Slot.render : Slot → String
  | input => "<input>"
  | output => "<output>"

/-- What is wrong with a command line. -/
inductive UsageError where
  /-- Paths are missing. -/
  | missing (slots : List Slot)
  /-- An argument is one too many.  If it could be meant as a path, it may be given after `--`. -/
  | unexpected (argument : String) (mayBeValue : Bool)
  /-- An option is unknown but similar to one that is known. -/
  | misspelled (argument known : String)
  /-- An option was given a value. -/
  | unneededValue (option value : String)
  /-- A path is empty. -/
  | emptyValue (slot : Slot)
  deriving DecidableEq, Repr

/-- The long names of the options. -/
def optionNames : List String := ["help", "version"]

/-- The request that a long option makes. -/
def longOption? : String → Option Request
  | "help" => some .help
  | "version" => some .version
  | _ => none

/-- The request that an option of one letter makes. -/
def shortOption? : Char → Option Request
  | 'h' => some .help
  | 'V' => some .version
  | _ => none

/-- A misspelled option must be similar to a known one to a higher degree than this. -/
def similarityBound : Text.Degree := ⟨7, 10⟩

/-- The paths given so far.  A path is checked when the next argument is read that needs it to be in
order. -/
def checkLast : List String → Except UsageError Unit
  | ["", _] | [""] => .error (.emptyValue .input)
  | [_, ""] => .error (.emptyValue .output)
  | _ => .ok ()

/-- Splits the text behind the dashes of a long option at its first equals sign. -/
def splitLong (text : List Char) : String × Option String :=
  (String.ofList (text.takeWhile (· != '=')),
    match text.dropWhile (· != '=') with
    | [] => none
    | _ :: value => some (String.ofList value))

/-- Reads a long option, given without its dashes. -/
def readLong (paths : List String) (text : List Char) : Except UsageError Request :=
  match splitLong text with
  | (name, value?) =>
    match longOption? name, value? with
    | some request, none => do
      checkLast paths
      return request
    | some _, some value => .error (.unneededValue ("--" ++ name) value)
    | none, _ =>
      match Text.mostSimilar? similarityBound name optionNames with
      | some known => .error (.misspelled ("--" ++ name) ("--" ++ known))
      | none => .error (.unexpected ("--" ++ name) true)

/-- Reads an option of one letter, the first letter behind a dash. -/
def readShort (paths : List String) (letter : Char) : Except UsageError Request :=
  match shortOption? letter with
  | some request => do
    checkLast paths
    return request
  | none => .error (.unexpected (String.ofList ['-', letter]) true)

/-- Takes an argument as a path. -/
def readPath (paths : List String) (argument : String) : Except UsageError (List String) :=
  match paths with
  | [] => .ok [argument]
  | [_] => do
    checkLast paths
    return paths ++ [argument]
  | _ => .error (.unexpected argument false)

/-- Reads the arguments that are left when some paths were given. -/
def readFrom (paths : List String) (valuesOnly : Bool) :
    List String → Except UsageError Request
  | [] => do
    checkLast paths
    match paths with
    | [] => throw (.missing [.input, .output])
    | [_] => throw (.missing [.output])
    | input :: output :: _ => return .audit input output
  | argument :: rest =>
    if valuesOnly then do
      let paths ← readPath paths argument
      readFrom paths true rest
    else match argument.toList with
      | ['-', '-'] => readFrom paths true rest
      | '-' :: '-' :: text => readLong paths text
      | '-' :: letter :: _ => readShort paths letter
      | _ => do
        let paths ← readPath paths argument
        readFrom paths false rest

/-- Reads a command line. -/
def read (arguments : List String) : Except UsageError Request := readFrom [] false arguments

/-- The name of the command. -/
def commandName : String := "lexcheck"

/-- How the command is used, with an option if one is meant. -/
def usageLine (option? : Option String) : String :=
  "Usage: " ++ " ".intercalate ([commandName] ++ option?.toList ++ ["<input>", "<output>"])

/-- The text that explains the command. -/
def helpText : String :=
  "Validates a token stream and writes its canonical listing\n\n" ++ usageLine none ++ "\n\n" ++
    "Arguments:\n" ++
    "  <input>   Path to the source file to scan\n" ++
    "  <output>  Path of the listing to write (overwritten)\n\n" ++
    "Options:\n" ++
    "  -h, --help     Print help\n" ++
    "  -V, --version  Print version\n"

/-- The text that names the version of the command. -/
def versionText : String := commandName ++ " 0.1.0\n"

/-- The last line of a message about usage. -/
def helpHint : String := "\n\nFor more information, try '--help'.\n"

/-- The message about a wrong command line. -/
def UsageError.message : UsageError → String
  | missing slots =>
    "error: the following required arguments were not provided:" ++
      String.join (slots.map fun slot => "\n  " ++ slot.render) ++
      "\n\n" ++ usageLine none ++ helpHint
  | unexpected argument mayBeValue =>
    "error: unexpected argument '" ++ argument ++ "' found" ++
      (if mayBeValue then
        "\n\n  tip: to pass '" ++ argument ++ "' as a value, use '-- " ++ argument ++ "'"
      else "") ++
      "\n\n" ++ usageLine none ++ helpHint
  | misspelled argument known =>
    "error: unexpected argument '" ++ argument ++ "' found" ++
      "\n\n  tip: a similar argument exists: '" ++ known ++ "'\n\n" ++
      usageLine (some known) ++ helpHint
  | unneededValue option value =>
    "error: unexpected value '" ++ value ++ "' for '" ++ option ++
      "' found; no more were expected\n\n" ++ usageLine none ++ helpHint
  | emptyValue slot =>
    "error: a value is required for '" ++ slot.render ++ "' but none was supplied" ++ helpHint

end TokenAudit.CommandLine
