/-
This file reads paths as they are written: their components, the name at their end, and the order in
which a run lists files. Repeated slashes and dots between components do not matter.
-/

import PhpAudit.Text.Basic

namespace PhpAudit

/-- A component of a path. -/
inductive PathPart where
  /-- The slash at the start of an absolute path -/
  | top
  /-- The dot at the start of a relative path -/
  | here
  /-- Two dots -/
  | up
  | name (text : String)
deriving DecidableEq, Inhabited, Repr

namespace PathPart

/-- The rank of the kind of a component. -/
def rank : PathPart → Nat
  | top => 0
  | here => 1
  | up => 2
  | name _ => 3

/-- Order by kind, and names by their characters. -/
def lt : PathPart → PathPart → Bool
  | name first, name second => first < second
  | first, second => first.rank < second.rank

/-- A component after the first one; empty ones and dots are none. -/
def inner? : String → Option PathPart
  | "" => none
  | "." => none
  | ".." => some up
  | text => some (name text)

end PathPart

namespace Path

/-- The texts between the slashes of a path. -/
def pieces (path : String) : List String :=
  Text.splitBy (· == '/') path

/-- The components of a path. -/
def parts (path : String) : List PathPart :=
  match pieces path with
  | "" :: rest => if rest.isEmpty then [] else .top :: rest.filterMap PathPart.inner?
  | "." :: rest => .here :: rest.filterMap PathPart.inner?
  | texts => texts.filterMap PathPart.inner?

/-- The name at the end of a path, if it has one. -/
def fileName? (path : String) : Option String :=
  match (parts path).getLast? with
  | some (.name text) => some text
  | _ => none

/-- What follows the last dot of a file name; a dot at its start does not count. -/
def extension? (path : String) : Option String := do
  let name ← fileName? path
  match (Text.splitBy (· == '.') name).reverse with
  | last :: [before] => if before == "" then none else some last
  | last :: _ :: _ => some last
  | _ => none

/-- The path of something below a directory. -/
def join (directory way : String) : String :=
  if directory == "" || Text.endsWith directory "/" then directory ++ way
  else directory ++ "/" ++ way

/-- An absolute path, followed by the directories above it from the nearest to the top. -/
def ancestors (path : String) : List String :=
  let texts := pieces path
  (List.range texts.length).map fun steps =>
    match Text.join "/" (texts.take (texts.length - steps)) with
    | "" => "/"
    | directory => directory

/-! ### Order -/

/-- Lexicographic order of components. -/
def partsLe : List PathPart → List PathPart → Bool
  | [], _ => true
  | _ :: _, [] => false
  | first :: firsts, second :: seconds =>
    first.lt second || (first == second && partsLe firsts seconds)

/-- Paths in order, each once; of two spellings of one path the first stays. -/
def sorted (paths : List String) : List String :=
  let keyed := (paths.map fun path => (parts path, path)).mergeSort fun first second =>
    partsLe first.1 second.1
  (keyed.eraseRepsBy fun first second => first.1 == second.1).map (·.2)

end Path

end PhpAudit
