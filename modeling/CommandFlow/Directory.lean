/-
Files in a directory, and how a path leads to one of them.

A path is followed name by name.  Every name but the last has to stand for a directory, and the
first that does not ends the way; so of several faults on a path the leftmost one counts.  Of what
lies above the directory only its presence is known: `..` leads there, and no name leads on.
-/

namespace CommandFlow

/-- Why a file cannot be read. -/
inductive FileProblem where
  | notFound
  | denied
  /-- Something on the way is a file. -/
  | notDirectory
  | isDirectory
  | nameTooLong
  | notText
deriving DecidableEq, Repr

/-- The text of a problem. -/
def FileProblem.message : FileProblem → String
  | .notFound => "No such file or directory (os error 2)"
  | .denied => "Permission denied (os error 13)"
  | .notDirectory => "Not a directory (os error 20)"
  | .isDirectory => "Is a directory (os error 21)"
  | .nameTooLong => "File name too long (os error 36)"
  | .notText => "stream did not contain valid UTF-8"

/-- The contents of files by path. -/
abbrev Files := String → Except FileProblem String

/-- The longest name, in bytes. -/
def maxNameSize : Nat := 255

/-- The longest path, in bytes. -/
def maxPathSize : Nat := 4095

/-- The files in a directory and below it, each with the names that lead to it. -/
structure Directory where
  files : List (List String × String)
deriving DecidableEq, Repr

namespace Directory

/-- Where a path has led so far. -/
inductive Place where
  /-- The place that names lead to, from the directory on. -/
  | below (names : List String)
  /-- A directory that holds this one. -/
  | above
deriving DecidableEq, Repr

/-- The directory with the given files, each with a path that leads down to it. A later file takes
the place of an earlier one. -/
def ofFiles (files : List (String × String)) : Directory :=
  ⟨files.reverse.map fun (path, text) =>
    ((path.splitOn "/").filter fun name => name ≠ "" ∧ name ≠ ".", text)⟩

/-- The text of the file that names lead to. -/
def text? (d : Directory) (names : List String) : Option String :=
  d.files.lookup names

/-- Whether names lead to a directory: it holds a file, or is the directory itself. -/
def isDirectory (d : Directory) (names : List String) : Bool :=
  names = [] || (d.files.any fun (file, _) => names.isPrefixOf file && file ≠ names)

/-- Whether names can be followed from a place. -/
def leadsOn (d : Directory) : Place → Bool
  | .below names => d.isDirectory names
  | .above => true

/-- Follows one name of a path. An empty name stays where it is, as a single dot does. -/
def follow (d : Directory) (place : Place) (name : String) : Except FileProblem Place :=
  if !d.leadsOn place then .error .notDirectory
  else if name = "" || name = "." then .ok place
  else if name = ".." then
    match place with
    | .below (first :: rest) => .ok (.below (first :: rest).dropLast)
    | _ => .ok .above
  else if maxNameSize < name.utf8ByteSize then .error .nameTooLong
  else
    match place with
    | .above => .error .notFound
    | .below names =>
      if (d.text? (names ++ [name])).isSome || d.isDirectory (names ++ [name]) then
        .ok (.below (names ++ [name]))
      else .error .notFound

/-- The place that a path leads to. A path with a slash at its start does not start in the
directory. -/
def place (d : Directory) (path : String) : Except FileProblem Place :=
  if path = "" then .error .notFound
  else if maxPathSize < path.utf8ByteSize then .error .nameTooLong
  else (path.splitOn "/").foldlM d.follow (if path.startsWith "/" then .above else .below [])

/-- The text of the file at a path. -/
def read (d : Directory) : Files := fun path => do
  match ← d.place path with
  | .above => .error .isDirectory
  | .below names =>
    match d.text? names with
    | some text => .ok text
    | none => .error .isDirectory

end Directory

end CommandFlow
