/-! # Files as the command finds them

A path is looked up one component at a time, from the root when it starts with `/` and from
the working directory otherwise. `.` stays where it is, `..` goes up (never above the root),
and an empty component, from `//` or a final `/`, stays too. Every component before the last
must name a directory: one that names nothing is not found, one that names a file is not a
directory. A component longer than 255 bytes, or a path of 4096 bytes or more, is too long.
Reading a directory fails, and so does the empty path.

* `FileTree.read`: the text of the file at a path, or why there is none.
* `FileTree.system`: the files a command sees on a usual system: the root, a few system
  directories, `/dev/null` (empty) and the working directory with the directories above it.
-/

namespace MiniLisp.Cli

/-- Why a file could not be read. -/
inductive FileError where
  | notFound
  | notDirectory
  | isDirectory
  | nameTooLong
  /-- Any other failure, in the system's words. -/
  | other (message : String)
  deriving DecidableEq, Repr

/-- The system's words for a file that could not be read. -/
def FileError.message : FileError → String
  | .notFound => "No such file or directory (os error 2)"
  | .notDirectory => "Not a directory (os error 20)"
  | .isDirectory => "Is a directory (os error 21)"
  | .nameTooLong => "File name too long (os error 36)"
  | .other m => m

/-- What a path names. -/
inductive Entry where
  | directory
  | file (text : String)
  deriving DecidableEq, Repr

/-- The longest name of one component, in bytes. -/
def nameMax : Nat := 255

/-- The length in bytes from which a whole path is too long. -/
def pathMax : Nat := 4096

/-- A tree of files. -/
structure FileTree where
  /-- What the absolute path with these components names, if anything. -/
  entry? : List String → Option Entry
  /-- The working directory, by its components. -/
  cwd : List String

namespace FileTree

/-- Looks up the components `cs` from the directory `here`. -/
def lookupFrom (t : FileTree) : List String → List String → Except FileError Entry
  | _, [] => .ok .directory
  | here, c :: cs =>
    if c = "" || c = "." then t.lookupFrom here cs
    else if c = ".." then t.lookupFrom here.dropLast cs
    else if nameMax < c.utf8ByteSize then .error .nameTooLong
    else
      match t.entry? (here ++ [c]) with
      | none => .error .notFound
      | some .directory => t.lookupFrom (here ++ [c]) cs
      | some (.file text) => if cs.isEmpty then .ok (.file text) else .error .notDirectory

/-- The text of the file at a path. -/
def read (t : FileTree) (path : String) : Except FileError String :=
  if path.isEmpty then .error .notFound
  else if pathMax ≤ path.utf8ByteSize then .error .nameTooLong
  else
    let start := if path.startsWith "/" then [] else t.cwd
    match t.lookupFrom start (path.splitOn "/") with
    | .ok (.file text) => .ok text
    | .ok .directory => .error .isDirectory
    | .error e => .error e

/-- The directories of a usual system, besides the working directory and those above it. -/
def systemDirectories : List (List String) :=
  [["bin"], ["dev"], ["etc"], ["home"], ["lib"], ["proc"], ["root"], ["sys"], ["tmp"], ["usr"],
    ["var"]]

/-- A usual system working in `cwd`. -/
def system (cwd : List String) : FileTree where
  entry? p :=
    if p = ["dev", "null"] then some (.file "")
    else if systemDirectories.contains p || (List.range (cwd.length + 1)).any (cwd.take · == p) then
      some .directory
    else none
  cwd := cwd

end FileTree

end MiniLisp.Cli
