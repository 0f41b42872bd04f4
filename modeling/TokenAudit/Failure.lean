import TokenAudit.Text.Quoted

/-!
# Failures

What can go wrong outside a text: the operating system refuses a file operation, the input is no
UTF-8, a token source breaks down, or the artifact cannot be put in place.  Every failure is a
cause, and `message` gives its wording.
-/

namespace TokenAudit

/-- A refusal of the operating system, by its error number. -/
structure OsError where
  code : Nat
  deriving DecidableEq, Repr

namespace OsError

/-- The file or directory is not there. -/
def notFound : OsError := ⟨2⟩

/-- The place is in use. -/
def busy : OsError := ⟨16⟩

/-- A file stands where a directory is needed. -/
def notDirectory : OsError := ⟨20⟩

/-- A directory stands where a file is needed. -/
def isDirectory : OsError := ⟨21⟩

/-- A name is longer than a directory can hold. -/
def nameTooLong : OsError := ⟨36⟩

/-- The standard wording of an error number. -/
def description (e : OsError) : String :=
  match e.code with
  | 1 => "Operation not permitted"
  | 2 => "No such file or directory"
  | 3 => "No such process"
  | 4 => "Interrupted system call"
  | 5 => "Input/output error"
  | 6 => "No such device or address"
  | 7 => "Argument list too long"
  | 8 => "Exec format error"
  | 9 => "Bad file descriptor"
  | 10 => "No child processes"
  | 11 => "Resource temporarily unavailable"
  | 12 => "Cannot allocate memory"
  | 13 => "Permission denied"
  | 14 => "Bad address"
  | 15 => "Block device required"
  | 16 => "Device or resource busy"
  | 17 => "File exists"
  | 18 => "Invalid cross-device link"
  | 19 => "No such device"
  | 20 => "Not a directory"
  | 21 => "Is a directory"
  | 22 => "Invalid argument"
  | 23 => "Too many open files in system"
  | 24 => "Too many open files"
  | 25 => "Inappropriate ioctl for device"
  | 26 => "Text file busy"
  | 27 => "File too large"
  | 28 => "No space left on device"
  | 29 => "Illegal seek"
  | 30 => "Read-only file system"
  | 31 => "Too many links"
  | 32 => "Broken pipe"
  | 36 => "File name too long"
  | 39 => "Directory not empty"
  | 40 => "Too many levels of symbolic links"
  | code => "Unknown error " ++ code.repr

/-- The wording with the error number. -/
def message (e : OsError) : String :=
  e.description ++ " (os error " ++ e.code.repr ++ ")"

end OsError

/-- Why reading or writing failed. -/
inductive IoError where
  /-- The operating system refused. -/
  | os (error : OsError)
  /-- The operating system refused to create a temporary file at a path. -/
  | temporary (error : OsError) (path : String)
  /-- A failure that comes with its own wording. -/
  | other (message : String)
  deriving DecidableEq, Repr

/-- The wording of a failure to read or write. -/
def IoError.message : IoError → String
  | .os error => error.message
  | .temporary error path => error.message ++ " at path " ++ Text.quotedPath path
  | .other message => message

/-- Why a token source gave no token. -/
inductive Fault where
  /-- The input could not be read. -/
  | unreadable (path : String) (cause : IoError)
  /-- The input is not UTF-8. -/
  | notUtf8 (path : String)
  /-- A scripted source broke down as told. -/
  | injected (message : String)
  deriving DecidableEq, Repr

namespace Fault

/-- The wording of a fault. -/
def message : Fault → String
  | unreadable path cause => "cannot read input '" ++ path ++ "': " ++ cause.message
  | notUtf8 path => "input '" ++ path ++ "' is not valid UTF-8"
  | injected message => "injected fault: " ++ message

/-- The failure behind a fault. -/
def cause? : Fault → Option IoError
  | unreadable _ cause => some cause
  | notUtf8 _ | injected _ => none

end Fault

/-- Why an artifact did not get to its place. -/
inductive ArtifactError where
  /-- Its contents could not be written out. -/
  | write (path : String) (cause : IoError)
  /-- It could not take the place of what is at the path. -/
  | replace (path : String) (cause : IoError)
  deriving DecidableEq, Repr

namespace ArtifactError

/-- The wording of a failure to leave an artifact. -/
def message : ArtifactError → String
  | write path cause => "cannot write artifact '" ++ path ++ "': " ++ cause.message
  | replace path cause => "cannot replace artifact '" ++ path ++ "': " ++ cause.message

/-- The failure behind a missing artifact. -/
def cause : ArtifactError → IoError
  | write _ cause | replace _ cause => cause

end ArtifactError

end TokenAudit
