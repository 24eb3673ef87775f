namespace TokenizerHost

inductive FileTree where
  | file (content : ByteArray)
  | directory (entries : List (String × FileTree))
  deriving Inhabited

inductive ReadFailure where
  | notFound
  | isDirectory
  /-- A part of the path that is not the last is a file. -/
  | notADirectory
  deriving DecidableEq, Repr, Inhabited

namespace ReadFailure

def message : ReadFailure → String
  | .notFound => "No such file or directory"
  | .isDirectory => "Is a directory"
  | .notADirectory => "Not a directory"

end ReadFailure

namespace FileTree

def empty : FileTree := .directory []

/-- Follows the names of a path. The directories above are kept for `..`; what lies above the tree
is not found. -/
def follow (above : List FileTree) (here : FileTree) : List String → Except ReadFailure FileTree
  | [] => .ok here
  | name :: rest =>
    match here with
    | .file _ => .error .notADirectory
    | .directory entries =>
      if name = "" ∨ name = "." then follow above here rest
      else if name = ".." then
        match above with
        | [] => .error .notFound
        | parent :: above => follow above parent rest
      else
        match entries.find? (·.1 == name) with
        | some (_, found) => follow (here :: above) found rest
        | none => .error .notFound

def lookup (t : FileTree) (path : String) : Except ReadFailure FileTree :=
  if path.isEmpty || path.startsWith "/" then .error .notFound
  else follow [] t (path.splitOn "/")

def read (t : FileTree) (path : String) : Except ReadFailure ByteArray := do
  match ← t.lookup path with
  | .file content => return content
  | .directory _ => throw .isDirectory

/-- Puts a node at the names of a path and makes the directories on the way; a file on the way
gives place to a directory. -/
def putAt (node : FileTree) : List String → FileTree → FileTree
  | [], _ => node
  | name :: rest, here =>
    let entries := match here with
      | .directory entries => entries
      | .file _ => []
    let old := (entries.find? (·.1 == name)).elim empty (·.2)
    .directory (entries.filter (·.1 != name) ++ [(name, putAt node rest old)])

def put (t : FileTree) (path : String) (node : FileTree) : FileTree :=
  putAt node ((path.splitOn "/").filter fun name => name ≠ "" ∧ name ≠ ".") t

def isPath (path : String) : Bool :=
  path.utf8ByteSize < 4096 && !path.toList.contains '\x00' &&
    (path.splitOn "/").all fun name => name.utf8ByteSize ≤ 255

def isDirectory : FileTree → Bool
  | .directory _ => true
  | .file _ => false

/-- Whether the names of a path lead to a directory, where the directories that are missing are
made. No directory is made under the name `.`, so its place must have been there. -/
def leadsToDirectory (above : List FileTree) (here : FileTree) : List String → Bool
  | [] => here.isDirectory
  | name :: rest =>
    match here with
    | .file _ => false
    | .directory entries =>
      if name = "" ∨ name = "." then leadsToDirectory above here rest
      else if name = ".." then
        match above with
        | [] => true
        | parent :: above => leadsToDirectory above parent rest
      else
        match entries.find? (·.1 == name) with
        | some (_, found) => leadsToDirectory (here :: above) found rest
        | none =>
          if rest.contains "." && rest.all fun name => name = "" ∨ name = "." then false
          else leadsToDirectory (here :: above) empty rest

/-- Whether a directory can be made at a path, with all directories on the way. What lies outside
the tree is in nobody's way. -/
def canMakeDirectory (t : FileTree) (path : String) : Bool :=
  isPath path && (path.startsWith "/" || leadsToDirectory [] t (path.splitOn "/"))

end FileTree

end TokenizerHost
