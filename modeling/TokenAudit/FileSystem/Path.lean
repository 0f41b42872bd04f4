/-!
# Paths

A path is a text in which slashes separate names.  Empty names and the name `.` stay where they are,
and `..` leads one directory up.
-/

namespace TokenAudit.Path

/-- The longest path, in bytes, that a system call takes. -/
def maxLength : Nat := 4095

/-- The texts between the slashes, empty ones included. -/
def segments : List Char → List (List Char)
  | [] => [[]]
  | c :: rest =>
    if c = '/' then [] :: segments rest
    else match segments rest with
      | [] => [[c]]
      | first :: others => (c :: first) :: others

/-- The names of a path, in order. -/
def names (path : String) : List String := (segments path.toList).map String.ofList

/-- A path that starts at the top of the whole system and not in the working directory. -/
def isAbsolute (path : String) : Bool := path.toList.head? == some '/'

/-- Strips slashes and names `.` from the end of a reversed path.  A lone slash stays. -/
def trimBack : List Char → List Char
  | '/' :: c :: rest => trimBack (c :: rest)
  | '.' :: '/' :: rest => if rest = [] then ['/'] else trimBack rest
  | path => path

/-- The path of the directory that holds the last name of a path.  It is empty for a single name.
The empty path and a path of slashes hold no name. -/
def parent? (path : String) : Option String :=
  match trimBack path.toList.reverse with
  | [] => none
  | ['/'] => none
  | trimmed =>
    match trimmed.dropWhile (· != '/') with
    | [] => some ""
    | above => some (String.ofList (trimBack above).reverse)

/-- The directory in which a file at a path lies. -/
def directory (path : String) : String :=
  match parent? path with
  | none | some "" => "."
  | some above => above

/-- Whether a path ends in a slash, so that it must lead to a directory. -/
def endsInSlash (path : String) : Bool := path.toList.getLast? == some '/'

/-- The names before the last one that is not empty, and that name. -/
def splitLast (path : String) : List String × String :=
  let reversed := (names path).reverse.dropWhile (· == "")
  ((reversed.drop 1).reverse, reversed.head?.getD "")

/-- A path below a directory. -/
def join (directory name : String) : String :=
  if isAbsolute name then name
  else if endsInSlash directory then directory ++ name
  else directory ++ "/" ++ name

end TokenAudit.Path
