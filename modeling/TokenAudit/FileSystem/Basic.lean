import TokenAudit.Failure
import TokenAudit.FileSystem.Path

/-!
# File systems

A file system says what stands at every place.  A place is the list of the names that lead to it
from the top.  A path with a slash in front is followed from the top, and any other path from the
working directory; the name `..` leads one directory up, and at the top it stays there.  There are
no links: at a place stands a file, a directory or nothing.

The operations fail for the reasons for which a POSIX system refuses them, and an operation that
fails changes nothing.  Besides, the system may refuse to change something for reasons of its own.
-/

namespace TokenAudit

/-- What stands at a place. -/
inductive Node where
  | file (bytes : ByteArray)
  | directory

/-- The names that lead from the top of the system to a place. -/
abbrev Place := List String

/-- What stands at a place, and why it cannot be read, if it is a file that cannot. -/
structure Entry where
  node : Node
  readRefusal? : Option OsError := none

/-- A change that is asked of the system. -/
inductive Request where
  /-- A new file is opened at a place. -/
  | create (place : Place)
  /-- Bytes are stored in a new file. -/
  | store (place : Place) (bytes : ByteArray)
  /-- What was stored is written out. -/
  | flush (place : Place)
  /-- A file is moved from one place to another. -/
  | rename (source target : Place)

/-- The files and directories of a system, seen from a working directory. -/
structure FileSystem where
  /-- The path of the working directory from the top. -/
  workingDirectory : String
  /-- What stands where.  Of two entries for one place the first counts. -/
  entries : List (Place × Entry) := []
  /-- What the system refuses for reasons of its own, such as rights or a full disk. -/
  refusal? : Request → Option OsError := fun _ => none

namespace FileSystem

/-! ### Places -/

/-- The place of the working directory. -/
def here (fs : FileSystem) : Place := (Path.names fs.workingDirectory).filter (· != "")

/-- The entry of a place.  The working directory and the directories above it are always there. -/
def found? (fs : FileSystem) (place : Place) : Option Entry :=
  if place.isPrefixOf fs.here then some { node := .directory } else fs.entries.lookup place

/-- What stands at a place. -/
def lookup (fs : FileSystem) (place : Place) : Option Node := (fs.found? place).map Entry.node

/-- Takes away what stands at a place. -/
def erase (fs : FileSystem) (place : Place) : FileSystem :=
  { fs with entries := fs.entries.filter fun entry => entry.1 != place }

/-- Puts something at a place, instead of what stood there. -/
def insert (fs : FileSystem) (place : Place) (node : Node) : FileSystem :=
  { fs with entries := (place, { node }) :: (fs.erase place).entries }

/-! ### Paths -/

/-- The longest name, in bytes, that a directory holds. -/
def maxNameLength : Nat := 255

/-- The place from which the names of a path are followed. -/
def start (fs : FileSystem) (path : String) : Place :=
  if Path.isAbsolute path then [] else fs.here

/-- Follows names from a place.  Each name is looked up in a directory, so everything before the
last name must be one. -/
def follow (fs : FileSystem) : Place → List String → Except OsError Place
  | place, [] => .ok place
  | place, name :: names =>
    match fs.lookup place with
    | none => .error .notFound
    | some (.file _) => .error .notDirectory
    | some .directory =>
      if name = "" ∨ name = "." then follow fs place names
      else if name = ".." then follow fs place.dropLast names
      else if maxNameLength < name.utf8ByteSize then .error .nameTooLong
      else follow fs (place ++ [name]) names

/-- The place to which a path leads, whether or not anything stands there.  The empty path leads
nowhere. -/
def locate (fs : FileSystem) (path : String) : Except OsError Place :=
  if path = "" then .error .notFound
  else if Path.maxLength < path.utf8ByteSize then .error .nameTooLong
  else fs.follow (fs.start path) (Path.names path)

/-- What stands at the end of a path. -/
def get? (fs : FileSystem) (path : String) : Option Node :=
  match fs.locate path with
  | .ok place => fs.lookup place
  | .error _ => none

/-! ### Reading and writing -/

/-- The wording for a path that no system call takes. -/
def nulMessage : String := "file name contained an unexpected NUL byte"

/-- The bytes of the file at a path. -/
def read (fs : FileSystem) (path : String) : Except IoError ByteArray :=
  if path.toList.contains '\x00' then .error (.other nulMessage)
  else match fs.locate path with
    | .error refusal => .error (.os refusal)
    | .ok place =>
      match fs.found? place with
      | none => .error (.os .notFound)
      | some ⟨.directory, _⟩ => .error (.os .isDirectory)
      | some ⟨.file _, some refusal⟩ => .error (.os refusal)
      | some ⟨.file bytes, none⟩ => .ok bytes

/-- Stores a file, new or instead of the one that is there. -/
def write (fs : FileSystem) (path : String) (bytes : ByteArray) : Except OsError FileSystem :=
  match fs.locate path with
  | .error refusal => .error refusal
  | .ok place =>
    match fs.lookup place with
    | some .directory => .error .isDirectory
    | _ => .ok (fs.insert place (.file bytes))

/-- Makes a directory, and every directory above it that is missing. -/
def makeDirectory (fs : FileSystem) (path : String) : FileSystem :=
  let step (state : FileSystem × Place) (name : String) : FileSystem × Place :=
    match state.1.follow state.2 [name] with
    | .error _ => state
    | .ok place =>
      match state.1.lookup place with
      | none => (state.1.insert place .directory, place)
      | some _ => (state.1, place)
  ((Path.names path).foldl step (fs, fs.start path)).1

/-- Takes away a file, or a directory with all that is in it, but not the working directory. -/
def remove (fs : FileSystem) (path : String) : FileSystem :=
  match fs.locate path with
  | .error _ => fs
  | .ok place =>
    if place.isPrefixOf fs.here then fs
    else { fs with entries := fs.entries.filter fun entry => !place.isPrefixOf entry.1 }

/-- The names in the working directory, sorted. -/
def list (fs : FileSystem) : List String :=
  let names := fs.entries.filterMap fun entry =>
    if entry.1.dropLast = fs.here then entry.1.getLast? else none
  names.mergeSort fun a b => decide (a ≤ b)

end FileSystem

end TokenAudit
