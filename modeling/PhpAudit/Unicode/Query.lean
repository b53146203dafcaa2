/-
This file answers queries for sets of characters: by one name, which may be that of a property, a
general category or a script, or by the value of a property.
-/

import PhpAudit.Unicode.Age
import PhpAudit.Unicode.Break
import PhpAudit.Unicode.Script

namespace PhpAudit.Unicode

/-- The set that goes by a name. -/
def named? (name : String) : Option CodeSet :=
  let name := askedName name
  property? name <|> category? name <|> script? name

/-- The set of characters for which a property has a value. -/
def valued? (property value : String) : Option CodeSet :=
  let value := askedName value
  match askedName property with
  | "gc" | "generalcategory" => category? value
  | "sc" | "script" => script? value
  | "scx" | "scriptextensions" => scriptExtension? value
  | "age" => age? value
  | "gcb" | "graphemeclusterbreak" => graphemeBreak? value
  | "wb" | "wordbreak" => wordBreak? value
  | "sb" | "sentencebreak" => sentenceBreak? value
  | _ => none

end PhpAudit.Unicode
