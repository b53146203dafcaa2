/-
This file holds the settings that the analysis reads, and the names that have a fixed meaning.
-/

import PhpAudit.Text.Basic

namespace PhpAudit

/-- Variables that exist everywhere and are never unused. -/
def superglobals : List String :=
  ["$GLOBALS", "$_SERVER", "$_GET", "$_POST", "$_FILES", "$_COOKIE", "$_SESSION", "$_REQUEST",
    "$_ENV", "$argv", "$argc", "$http_response_header"]

def isSuperglobal (name : String) : Bool :=
  superglobals.contains name

/-- The text that asks for silence about the file it stands in. -/
def disableMarker : String := "@linter disable"

/-- The settings of an analysis. A pattern is the set of texts in which it finds a match. -/
structure Options where
  /-- Names, without `$`, of variables that are unused on purpose; `_` if not set -/
  discard : Option (String → Bool) := none
  /-- A fatal user error does not end the program -/
  ignoreTriggerError : Bool := false
  /-- Files in which the disabling text is honored -/
  allowDisable : Option (String → Bool) := none
deriving Inhabited

namespace Options

/-- Whether a variable is meant to be unused. -/
def isDiscard (options : Options) (name : String) : Bool :=
  let bare := Text.withoutDollar name
  match options.discard with
  | some accepts => accepts bare
  | none => bare == "_"

/-- Whether the disabling text is honored in a file. -/
def allowsDisable (options : Options) (file : String) : Bool :=
  options.allowDisable.any fun accepts => accepts file

end Options

end PhpAudit
