/-
This file says what a command needs of the files around it, and gives the files of a directory tree
in memory as one way to meet the need.
-/

import PhpAudit.Path

namespace PhpAudit

/-- Why a file cannot be read or written. -/
inductive FileError where
  | notFound
  | notDirectory
  | isDirectory
  /-- The bytes of the file are no UTF-8 text -/
  | notText
  /-- Any other reason, in the words of the system -/
  | other (reason : String)
deriving DecidableEq, Inhabited, Repr

namespace FileError

def message : FileError → String
  | notFound => "No such file or directory (os error 2)"
  | notDirectory => "Not a directory (os error 20)"
  | isDirectory => "Is a directory (os error 21)"
  | notText => "stream did not contain valid UTF-8"
  | other reason => reason

end FileError

/-- Access to files. Paths are given as a user writes them. -/
structure Disk (m : Type → Type) where
  /-- The absolute path of the directory in which relative paths start -/
  workingDirectory : m String
  isFile : String → m Bool
  isDirectory : String → m Bool
  read : String → m (Except FileError String)
  /-- The files below a directory at any depth; their paths start with that of the directory -/
  filesBelow : String → m (List String)
  /-- Makes an empty file, or empties the file that is there -/
  create : String → m (Except FileError Unit)

/-- The names that lead from the top of a tree to a file or directory. -/
abbrev Place := List String

/-- The files of a directory tree. -/
structure FileTree where
  /-- How the top of the tree is written in an absolute path -/
  root : String := ""
  files : List (Place × ByteArray) := []
  /-- The directory in which relative paths start -/
  directory : Place := []

namespace FileTree

/-! ### Places -/

def content? (tree : FileTree) (place : Place) : Option ByteArray :=
  tree.files.lookup place

/-- A directory is on the way to a file, or to the place where relative paths start. -/
def hasDirectory (tree : FileTree) (place : Place) : Bool :=
  place.isPrefixOf tree.directory ||
    tree.files.any fun (file, _) => place.isPrefixOf file && place != file

/-- Goes one step from a place, which has to be a directory. -/
def step (tree : FileTree) (place : Place) (piece : String) : Except FileError Place :=
  if tree.hasDirectory place then
    match piece with
    | "" => .ok place
    | "." => .ok place
    | ".." => .ok place.dropLast
    | name => .ok (place ++ [name])
  else if (tree.content? place).isSome then
    .error .notDirectory
  else
    .error .notFound

/-- The start of a path and the pieces of the way from there; no path leads out of the tree. -/
def start (tree : FileTree) (path : String) : Except FileError (Place × List String) :=
  match Text.afterStart? path (tree.root ++ "/") with
  | some way => .ok ([], Path.pieces way)
  | none =>
    if Text.startsWith path "/" then .error .notFound
    else .ok (tree.directory, Path.pieces path)

/-- The place to which a path leads; there may be nothing yet in the last directory. -/
def place (tree : FileTree) (path : String) : Except FileError Place := do
  let (place, pieces) ← tree.start path
  pieces.foldlM tree.step place

/-! ### Access -/

def isFile (tree : FileTree) (path : String) : Bool :=
  match tree.place path with
  | .ok place => (tree.content? place).isSome
  | .error _ => false

def isDirectory (tree : FileTree) (path : String) : Bool :=
  match tree.place path with
  | .ok place => tree.hasDirectory place
  | .error _ => false

def read (tree : FileTree) (path : String) : Except FileError String := do
  let place ← tree.place path
  match tree.content? place with
  | some bytes =>
    match String.fromUTF8? bytes with
    | some text => return text
    | none => throw .notText
  | none => throw (if tree.hasDirectory place then .isDirectory else .notFound)

def filesBelow (tree : FileTree) (path : String) : List String :=
  match tree.place path with
  | .ok place =>
    let inside := tree.files.filter fun (file, _) => place.isPrefixOf file
    inside.map fun (file, _) => Path.join path (Text.join "/" (file.drop place.length))
  | .error _ => []

/-- The place of a file that is to be written; a path that ends like a directory names none. -/
def target (tree : FileTree) (path : String) : Except FileError Place := do
  let place ← tree.place (Text.trimEndWhile (· == '/') path)
  if (Path.fileName? path).isNone || Text.endsWith path "/" || Text.endsWith path "/." ||
      tree.hasDirectory place then
    throw .isDirectory
  else
    return place

def create (tree : FileTree) (path : String) : Except FileError FileTree := do
  let place ← tree.target path
  let others := tree.files.filter fun (file, _) => file != place
  return { tree with files := (place, .empty) :: others }

/-- The path of the directory in which relative paths start. -/
def workingDirectory (tree : FileTree) : String :=
  match Text.join "/" (tree.root :: tree.directory) with
  | "" => "/"
  | path => path

/-- A tree that commands read and write. -/
def disk : Disk (StateM FileTree) where
  workingDirectory := return (← get).workingDirectory
  isFile path := return (← get).isFile path
  isDirectory path := return (← get).isDirectory path
  read path := return (← get).read path
  filesBelow path := return (← get).filesBelow path
  create path := do
    match (← get).create path with
    | .ok tree =>
      set tree
      return .ok ()
    | .error error => return .error error

end FileTree

end PhpAudit
