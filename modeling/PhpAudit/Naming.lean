/-
This file resolves names as written in a source to fully qualified names. What a name means depends
on the namespace, on the imports before it, and on the class around it.
-/

import Std.Data.TreeMap
import PhpAudit.Text.Basic

namespace PhpAudit

/-- A qualified name with its leading `\`. -/
def absolute (name : String) : String :=
  if Text.startsWith name "\\" then name else "\\" ++ name

/-- The key under which a class or function is indexed: names differ only by more than case. -/
def symbolKey (name : String) : String :=
  Text.lower (absolute name)

/-- The naming context of a piece of code. -/
structure Naming where
  /-- The namespace with a leading `\`, empty for the global one -/
  space : String := ""
  /-- Imported classes by folded shortName -/
  classes : Std.TreeMap String String := {}
  /-- Imported functions by folded shortName -/
  functions : Std.TreeMap String String := {}
  /-- Imported constants by shortName -/
  constants : Std.TreeMap String String := {}
  /-- The class around the code, empty outside one -/
  owner : String := ""
  /-- The parent of the class around the code, empty if there is none -/
  parent : String := ""
  /-- The function or method around the code, empty outside one -/
  function : String := ""
  inTrait : Bool := false
deriving Inhabited

/-- A name to look up, and the one to look up if it does not exist. -/
structure Candidates where
  name : String
  fallback : Option String
deriving DecidableEq, Inhabited, Repr

namespace Naming

private def rooted (name : String) : String :=
  "\\" ++ Text.withoutRoot name

/-- The context at the start of a namespace: imports do not carry over. -/
def ofNamespace : Option String → Naming
  | none => {}
  | some name => if name.isEmpty then {} else { space := rooted name }

def enterClass (naming : Naming) (owner parent : String) (inTrait : Bool) : Naming :=
  { naming with owner, parent, inTrait }

def enterFunction (naming : Naming) (function : String) : Naming :=
  { naming with function }

def importClass (naming : Naming) (shortName name : String) : Naming :=
  { naming with classes := naming.classes.insert (Text.lower shortName) (rooted name) }

def importFunction (naming : Naming) (shortName name : String) : Naming :=
  { naming with functions := naming.functions.insert (Text.lower shortName) (rooted name) }

def importConstant (naming : Naming) (shortName name : String) : Naming :=
  { naming with constants := naming.constants.insert shortName (rooted name) }

/-- `name` as declared in the namespace. -/
def declared (naming : Naming) (name : String) : String :=
  naming.space ++ "\\" ++ name

/-- What follows the keyword in `namespace\name`. -/
def afterNamespaceKeyword? (name : String) : Option String :=
  if Text.startsWith (Text.lower name) "namespace\\" then
    some (String.ofList (name.toList.drop 10))
  else
    none

def isQualified (name : String) : Bool :=
  name.toList.contains '\\'

/-- The fully qualified name of a class. -/
def className (naming : Naming) (name : String) : String :=
  if Text.startsWith name "\\" then
    name
  else
    match afterNamespaceKeyword? name with
    | some rest => naming.declared rest
    | none =>
      let first := name.toList.takeWhile (· != '\\')
      let rest := name.toList.dropWhile (· != '\\')
      match naming.classes[Text.lower (String.ofList first)]? with
      | some imported => imported ++ String.ofList rest
      | none => naming.declared name

/-- The candidates for a name that is not a class, given the shortName table it is looked up in. -/
private def candidates (naming : Naming) (imported : Option String) (name : String) : Candidates :=
  if Text.startsWith name "\\" then
    ⟨name, none⟩
  else if isQualified name then
    ⟨naming.className name, none⟩
  else
    match imported with
    | some imported => ⟨imported, none⟩
    | none =>
      if naming.space.isEmpty then ⟨"\\" ++ name, none⟩
      else ⟨naming.declared name, some ("\\" ++ name)⟩

/-- The candidates for a called function: an unqualified name falls back to the global one. -/
def functionName (naming : Naming) (name : String) : Candidates :=
  candidates naming naming.functions[Text.lower name]? name

/-- The candidates for a constant: an unqualified name falls back to the global one. -/
def constantName (naming : Naming) (name : String) : Candidates :=
  candidates naming naming.constants[name]? name

end Naming

end PhpAudit
