import TokenAudit.FileSystem.Basic

/-!
# Temporary files

A file is replaced in steps: a temporary file is created, bytes are stored in it and written out, and
it is renamed over the file.  Each step can fail by itself.
-/

namespace TokenAudit.FileSystem

/-- The name of a temporary file with so many stars. -/
def starName (stars : Nat) : String := String.ofList (".tmp".toList ++ List.replicate stars '*')

/-- A name for a temporary file that nothing has: `.tmp` and six stars, or more stars than the
longest name has characters. -/
def temporaryName (fs : FileSystem) : String :=
  let taken := fs.here ++ fs.entries.flatMap Prod.fst
  if starName 6 ∈ taken then starName ((taken.map String.length).foldl max 0 + 1) else starName 6

/-- The path of a temporary file in the directory at a path, as it is written in messages. -/
def temporaryPath (fs : FileSystem) (path : String) : String :=
  Path.join (Path.join fs.workingDirectory path) (starName 6)

/-- Creates an empty temporary file in the directory at a path, and tells where. -/
def createTemporary (fs : FileSystem) (path : String) : Except IoError (Place × FileSystem) :=
  let refuse (refusal : OsError) : Except IoError (Place × FileSystem) :=
    .error (.temporary refusal (fs.temporaryPath path))
  if path.toList.contains '\x00' then
    .error (.other (nulMessage ++ " at path " ++ Text.quotedPath (fs.temporaryPath path)))
  else if Path.maxLength < (fs.temporaryPath path).utf8ByteSize then refuse .nameTooLong
  else match fs.follow (fs.start path) (Path.names path) with
  | .error refusal => refuse refusal
  | .ok directory =>
    match fs.lookup directory with
    | none => refuse .notFound
    | some (.file _) => refuse .notDirectory
    | some .directory =>
      let temporary := directory ++ [fs.temporaryName]
      match fs.refusal? (.create temporary) with
      | some refusal => refuse refusal
      | none => .ok (temporary, fs.insert temporary (.file .empty))

/-- Stores bytes in a temporary file. -/
def store (fs : FileSystem) (temporary : Place) (bytes : ByteArray) : Except OsError FileSystem :=
  match fs.refusal? (.store temporary bytes) with
  | some refusal => .error refusal
  | none => .ok (fs.insert temporary (.file bytes))

/-- Writes out what was stored in a temporary file. -/
def flush (fs : FileSystem) (temporary : Place) : Except OsError FileSystem :=
  match fs.refusal? (.flush temporary) with
  | some refusal => .error refusal
  | none => .ok fs

/-- Fills a temporary file with bytes: they are stored in it and written out. -/
def fill (fs : FileSystem) (temporary : Place) (bytes : ByteArray) : Except OsError FileSystem := do
  let stored ← fs.store temporary bytes
  stored.flush temporary

/-- The place that a file can be renamed to.  The last name must be a proper one without a slash
behind it, and no directory may stand there. -/
def renameTarget (fs : FileSystem) (path : String) : Except OsError Place :=
  if path = "" then .error .notFound
  else if Path.maxLength < path.utf8ByteSize then .error .nameTooLong
  else
    let (above, name) := Path.splitLast path
    match fs.follow (fs.start path) above with
    | .error refusal => .error refusal
    | .ok directory =>
      match fs.lookup directory with
      | none => .error .notFound
      | some (.file _) => .error .notDirectory
      | some .directory =>
        if name = "" ∨ name = "." ∨ name = ".." then .error .busy
        else if maxNameLength < name.utf8ByteSize then .error .nameTooLong
        else if Path.endsInSlash path then .error .notDirectory
        else match fs.lookup (directory ++ [name]) with
          | some .directory => .error .isDirectory
          | _ => .ok (directory ++ [name])

/-- Renames the file at a place to a path, over the file that is there. -/
def rename (fs : FileSystem) (source : Place) (path : String) : Except IoError FileSystem :=
  if path.toList.contains '\x00' then .error (.other nulMessage)
  else match fs.renameTarget path, fs.lookup source with
    | .error refusal, _ => .error (.os refusal)
    | .ok _, none => .error (.os .notFound)
    | .ok target, some node =>
      match fs.refusal? (.rename source target) with
      | some refusal => .error (.os refusal)
      | none => .ok ((fs.erase source).insert target node)

end TokenAudit.FileSystem
