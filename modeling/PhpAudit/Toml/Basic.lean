/-
This file defines the values of a TOML document and the rules by which its lines build one tree:
a key is set once, a table is opened once, and only tables that no header opened grow by dotted
keys.
-/

namespace PhpAudit

/-- How a table came to be, which decides what may still be added to it. -/
inductive TableOrigin where
  /-- By a header -/
  | explicit
  /-- As a value between braces, which is complete -/
  | inline
  /-- On the way to a deeper header -/
  | implied
  /-- By a dotted key -/
  | dotted
deriving DecidableEq, Inhabited, Repr

/-- A value of a document. Of floats and dates only the kind is kept. -/
inductive Toml where
  | string (value : String)
  | integer (value : Int)
  | float
  | boolean (value : Bool)
  | date
  | array (items : List Toml)
  | table (origin : TableOrigin) (entries : List (String × Toml))
  /-- The tables that `[[name]]` headers open, last one first -/
  | tables (list : List (List (String × Toml)))
deriving Inhabited

namespace Toml

/-- The entries of a table, in the order in which their keys first appeared. -/
abbrev Entries := List (String × Toml)

def lookup? (key : String) (entries : Entries) : Option Toml :=
  List.lookup key entries

/-- Sets the value of a key, in place if the key is there. -/
def put (key : String) (value : Toml) : Entries → Entries
  | [] => [(key, value)]
  | (other, old) :: rest =>
    if other == key then (key, value) :: rest else (other, old) :: put key value rest

def remove (key : String) (entries : Entries) : Entries :=
  entries.filter fun (other, _) => other != key

/--
Changes the table at the end of a path. Headers lead through tables that are not inline and into the
last of several tables; dotted keys lead only through tables that no header opened. Values on the way
are an error, and missing tables come into being.
-/
def descend (byDots : Bool) (change : Entries → TableOrigin → Option Entries) :
    List String → TableOrigin → Entries → Option Entries
  | [], origin, entries => change entries origin
  | key :: path, _, entries =>
    let created : TableOrigin := if byDots then .dotted else .implied
    match lookup? key entries with
    | none =>
      (descend byDots change path created []).map fun inner =>
        put key (.table created inner) entries
    | some (.table origin inner) =>
      if origin == .inline || byDots && origin == .explicit then
        none
      else
        (descend byDots change path origin inner).map fun inner =>
          put key (.table origin inner) entries
    | some (.tables (last :: others)) =>
      (descend byDots change path .explicit last).map fun last =>
        put key (.tables (last :: others)) entries
    | some _ => none

/-- Sets a key under a path of dotted keys; the key must be new. -/
def setKey (path : List String) (key : String) (value : Toml) (entries : Entries) :
    Option Entries :=
  descend true (fun inner origin =>
    if (origin == .dotted) == path.isEmpty then none
    else if (lookup? key inner).isSome then none
    else some (inner ++ [(key, value)])) path .explicit entries

/-- A table made of keys that may be dotted. -/
def ofPairs (pairs : List (List String × String × Toml)) : Option Entries :=
  pairs.foldl (fun entries? (path, key, value) =>
    entries?.bind (setKey path key value)) (some [])

/-- A part of a document: a header and the keys below it. -/
structure Section where
  path : List String
  /-- `[[name]]` in place of `[name]` -/
  repeated : Bool
  pairs : List (List String × String × Toml)

/-- Sets the keys of a section in its table. -/
def fill (part : Section) (start : Entries) : Option Entries :=
  part.pairs.foldl (fun entries? (path, key, value) =>
    entries?.bind (setKey path key value)) (some start)

/-- Opens the table of a header below the table around it, and fills it. -/
def openTable (part : Section) (key : String) (outer : Entries) : Option Entries :=
  if part.repeated then
    match lookup? key outer with
    | none => (fill part []).map fun table => put key (.tables [table]) outer
    | some (.tables list) => (fill part []).map fun table => put key (.tables (table :: list)) outer
    | some _ => none
  else
    match lookup? key outer with
    | none => (fill part []).map fun table => put key (.table .explicit table) outer
    | some (.table .implied inner) =>
      (fill part inner).map fun table => put key (.table .explicit table) outer
    | some _ => none

/-- Adds a section to a document. -/
def addSection (document : Entries) (part : Section) : Option Entries :=
  match part.path.reverse with
  | [] => fill part document
  | key :: above =>
    descend false (fun outer _ => openTable part key outer) above.reverse .explicit document

/-- The document made of its sections in order. -/
def ofSections (sections : List Section) : Option Entries :=
  sections.foldl (fun document? part => document?.bind fun document => addSection document part)
    (some [])

end Toml

end PhpAudit
