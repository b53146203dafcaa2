/-
This file defines the symbol index of a project. It keeps what every file declares, so that a file
can be retracted exactly, and beside it one merged table per kind of symbol. Of several declarations
of one symbol the merged table holds the largest; of equally large ones it holds the first.
-/

import PhpAudit.Naming
import PhpAudit.Symbol.Info

namespace PhpAudit

/-- The symbols that one file declares. -/
structure FileSymbols where
  /-- Classes, interfaces and enums by key -/
  classes : Std.TreeMap String ClassInfo := {}
  /-- Traits by key -/
  traits : Std.TreeMap String ClassInfo := {}
  /-- Functions by key -/
  functions : Std.TreeMap String FunctionInfo := {}
  /-- Global constants by qualified name -/
  constants : Std.TreeMap String ConstInfo := {}
  /-- Variables of the code outside functions, by name with `$` -/
  globals : Std.TreeMap String TypeSet := {}
deriving Inhabited

namespace FileSymbols

def addClass (symbols : FileSymbols) (info : ClassInfo) : FileSymbols :=
  let key := symbolKey info.name
  match info.kind with
  | .trait => { symbols with traits := symbols.traits.insert key info }
  | _ => { symbols with classes := symbols.classes.insert key info }

def addFunction (symbols : FileSymbols) (info : FunctionInfo) : FileSymbols :=
  { symbols with functions := symbols.functions.insert (symbolKey info.name) info }

def addConstant (symbols : FileSymbols) (name : String) (info : ConstInfo) : FileSymbols :=
  { symbols with constants := symbols.constants.insert (absolute name) info }

def addGlobal (symbols : FileSymbols) (name : String) (types : TypeSet) : FileSymbols :=
  { symbols with globals := symbols.globals.insert name types }

def isEmpty (symbols : FileSymbols) : Bool :=
  symbols.classes.isEmpty && symbols.traits.isEmpty && symbols.functions.isEmpty &&
    symbols.constants.isEmpty && symbols.globals.isEmpty

end FileSymbols

/-! ### Merged tables -/

namespace Merged

variable {Info : Type} (position : Info → Position)

/-- Offers a declaration to a table: it enters if it is larger than the one there. -/
def offer (table : Std.TreeMap String Info) (key : String) (info : Info) :
    Std.TreeMap String Info :=
  match table[key]? with
  | some current =>
    if (position current).length < (position info).length then table.insert key info else table
  | none => table.insert key info

/-- Offers every declaration of a file. -/
def offerAll (table declared : Std.TreeMap String Info) : Std.TreeMap String Info :=
  declared.toList.foldl (fun table (key, info) => offer position table key info) table

/-- The largest of some declarations, the first of those that are equally large. -/
def largest? (candidates : List Info) : Option Info :=
  candidates.foldl (fun best info =>
    match best with
    | some current =>
      if (position current).length < (position info).length then some info else best
    | none => some info) none

/-- Takes the declaration of `file` under `key` out of a table and puts the best other one in. -/
def retract (file : String) (others : String → List Info) (table : Std.TreeMap String Info)
    (key : String) : Std.TreeMap String Info :=
  match table[key]? with
  | some current =>
    if (position current).file == file then
      match largest? position (others key) with
      | some info => (table.erase key).insert key info
      | none => table.erase key
    else
      table
  | none => table

/-- Takes every declaration of `file` out of a table. -/
def retractAll (file : String) (others : String → List Info)
    (table declared : Std.TreeMap String Info) : Std.TreeMap String Info :=
  declared.keys.foldl (retract position file others) table

end Merged

/-- The reserved name of the file that declares the builtin symbols. -/
def builtinFile : String := "<builtin>"

/-- Why the index refuses a change. -/
inductive IndexError where
  /-- The index is frozen -/
  | indexingComplete
deriving DecidableEq, Inhabited, Repr

namespace IndexError

def message : IndexError → String
  | indexingComplete => "symbol index is frozen: indexing is already complete"

end IndexError

/-- The symbols of a project. -/
structure Index where
  files : Std.TreeMap String FileSymbols := {}
  classes : Std.TreeMap String ClassInfo := {}
  traits : Std.TreeMap String ClassInfo := {}
  functions : Std.TreeMap String FunctionInfo := {}
  constants : Std.TreeMap String ConstInfo := {}
  /-- A complete index is frozen: it answers questions and refuses changes -/
  complete : Bool := false
deriving Inhabited

/-- How many symbols of each kind an index holds. -/
structure IndexStats where
  files : Nat
  classes : Nat
  traits : Nat
  functions : Nat
  constants : Nat
deriving DecidableEq, Inhabited, Repr

namespace Index

def empty : Index := {}

/-! ### Changes -/

/-- Adds the symbols of a file without asking whether the index is frozen. -/
def insertFile (index : Index) (file : String) (symbols : FileSymbols) : Index where
  files := index.files.insert file symbols
  classes := Merged.offerAll ClassInfo.position index.classes symbols.classes
  traits := Merged.offerAll ClassInfo.position index.traits symbols.traits
  functions := Merged.offerAll FunctionInfo.position index.functions symbols.functions
  constants := Merged.offerAll ConstInfo.position index.constants symbols.constants
  complete := index.complete

/-- Removes the symbols of a file without asking whether the index is frozen. -/
def eraseFile (index : Index) (file : String) : Index :=
  match index.files[file]? with
  | none => index
  | some old =>
    let files := index.files.erase file
    let others {Info : Type} (table : FileSymbols → Std.TreeMap String Info) (key : String) :
        List Info :=
      files.values.filterMap fun symbols => (table symbols)[key]?
    { files
      classes := Merged.retractAll ClassInfo.position file (others (·.classes))
        index.classes old.classes
      traits := Merged.retractAll ClassInfo.position file (others (·.traits))
        index.traits old.traits
      functions := Merged.retractAll FunctionInfo.position file (others (·.functions))
        index.functions old.functions
      constants := Merged.retractAll ConstInfo.position file (others (·.constants))
        index.constants old.constants
      complete := index.complete }

private def changed (index : Index) (change : Index → Index) : Except IndexError Index :=
  if index.complete then .error .indexingComplete else .ok (change index)

/-- Adds the symbols of `file`. -/
def addFile (index : Index) (file : String) (symbols : FileSymbols) : Except IndexError Index :=
  index.changed (·.insertFile file symbols)

/-- Retracts what `file` declares. -/
def deleteFile (index : Index) (file : String) : Except IndexError Index :=
  index.changed (·.eraseFile file)

/-- Retracts what `file` declared before and adds what it declares now. -/
def replaceFile (index : Index) (file : String) (symbols : FileSymbols) :
    Except IndexError Index :=
  index.changed fun index => (index.eraseFile file).insertFile file symbols

/-- Freezes or thaws the index. -/
def setComplete (index : Index) (complete : Bool) : Index :=
  { index with complete }

/-! ### Questions -/

def class? (index : Index) (name : String) : Option ClassInfo :=
  index.classes[symbolKey name]?

def trait? (index : Index) (name : String) : Option ClassInfo :=
  index.traits[symbolKey name]?

def classOrTrait? (index : Index) (name : String) : Option ClassInfo :=
  index.class? name <|> index.trait? name

def function? (index : Index) (name : String) : Option FunctionInfo :=
  index.functions[symbolKey name]?

def constant? (index : Index) (name : String) : Option ConstInfo :=
  index.constants[absolute name]?

/-- The types that a variable of the code outside functions has in any file. -/
def global? (index : Index) (name : String) : Option TypeSet :=
  match index.files.values.filterMap (·.globals[name]?) with
  | [] => none
  | sets => some (sets.foldl TypeSet.append .empty)

def symbols? (index : Index) (file : String) : Option FileSymbols :=
  index.files[file]?

def fileNames (index : Index) : List String :=
  index.files.keys

def hasFile (index : Index) (file : String) : Bool :=
  index.files.contains file

def stats (index : Index) : IndexStats where
  files := index.files.size
  classes := index.classes.size
  traits := index.traits.size
  functions := index.functions.size
  constants := index.constants.size

end Index

end PhpAudit
