/-!
# File trees

Files in memory, and what a path leads to among them. A path is followed name by name from the root,
or from the working directory if it does not start with a slash. Every name is looked for where the
names before it lead, so the first name that leads nowhere decides the fault, and `..` does not undo
a name that is missing. The message of a fault is the reason with the number that the system gives
it, if the system gives it one.

Key definitions: `FileFault`, `FileTree`, `Place`, `Place.enter`, `FileTree.reach`.
-/

namespace GraphQuery

/-- Why a file or the input cannot be read. -/
inductive FileFault where
  | notFound
  | denied
  /-- A name is looked for in what is no directory. -/
  | notDirectory
  /-- A directory has no text. -/
  | isDirectory
  /-- A name in a path, or the path as a whole, is too long. -/
  | nameTooLong
  /-- The content is not UTF-8. -/
  | notText
  /-- Any other reason, in the words of the system. -/
  | other (reason : String)
  deriving DecidableEq

/-- The message of a fault. -/
def FileFault.message : FileFault → String
  | notFound => "No such file or directory (os error 2)"
  | denied => "Permission denied (os error 13)"
  | notDirectory => "Not a directory (os error 20)"
  | isDirectory => "Is a directory (os error 21)"
  | nameTooLong => "File name too long (os error 36)"
  | notText => "stream did not contain valid UTF-8"
  | other reason => reason

/-- What a name in a directory stands for. -/
inductive FileTree where
  | file (text : String)
  /-- The standard input, which is read like a file. -/
  | input
  | directory (entries : List (String × FileTree))

/-- A place in a tree: what is there, and the directories above it, the nearest one first. -/
structure Place where
  here : FileTree
  above : List FileTree

namespace Place

/-- The most bytes a name in a directory has. -/
def longestName : Nat := 255

/-- The directory above. The root is its own. -/
def up (p : Place) : Place :=
  match p.above with
  | directory :: above => ⟨directory, above⟩
  | [] => p

/-- Goes on by one name of a path. The empty name, which repeated and final slashes leave, and `.`
stay in the directory, but even they need one to stay in. -/
def enter (p : Place) (name : String) : Except FileFault Place :=
  match p.here with
  | .directory entries =>
    if name = "" || name = "." then .ok p
    else if name = ".." then .ok p.up
    else if longestName < name.utf8ByteSize then .error .nameTooLong
    else (entries.lookup name).elim (.error .notFound) fun found => .ok ⟨found, p.here :: p.above⟩
  | _ => .error .notDirectory

end Place

namespace FileTree

/-- The most bytes a path has. -/
def longestPath : Nat := 4095

/-- The place that a path leads to. The working directory is given by the names that lead to it from
the root. -/
def reach (root : FileTree) (workingDirectory : List String) (path : String) :
    Except FileFault Place :=
  if path = "" then .error .notFound
  else if longestPath < path.utf8ByteSize then .error .nameTooLong
  else
    let names := path.splitOn "/"
    (if path.startsWith "/" then names else workingDirectory ++ names).foldlM Place.enter ⟨root, []⟩

end FileTree

end GraphQuery
