/-
This file defines the settings of a project, which a TOML document gives: what to exclude, which
variables are unused on purpose, and how much work may go on at once.
-/

import PhpAudit.Options
import PhpAudit.Path
import PhpAudit.Pattern.Glob
import PhpAudit.Pattern.Regex.Reader
import PhpAudit.Toml.Reader

namespace PhpAudit

/-- The settings of a project. -/
structure Config where
  /-- Patterns of files that a search leaves out -/
  exclude : List String := []
  /-- Names, without `$`, of variables that are unused on purpose -/
  unusedVar : Option String := none
  /-- The number of bytes of source that are analyzed at once -/
  byteBudget : Nat := 20 * 1024 * 1024
  /-- A fatal user error does not end the program -/
  ignoreTriggerError : Bool := false
  /-- Files in which the disabling text is honored -/
  allowDisable : Option String := none
  /-- The number of workers; zero counts as not set -/
  threads : Option Nat := none
deriving DecidableEq, Inhabited, Repr

/-- Why settings are refused. -/
inductive ConfigError where
  /-- The document cannot be read -/
  | malformed
  /-- The setting under a key is no regular expression -/
  | regex (key : String)
  /-- A pattern to exclude is no file name pattern -/
  | glob (pattern : String)
deriving DecidableEq, Inhabited, Repr

namespace Config

/-! ### Reading -/

/--
The fields of a record in the order of `names`. A table gives them by name and an array by place; a
date is a record without any of them.
-/
def fields? (names : List String) : Toml → Option (List (Option Toml))
  | .table _ entries => some (names.map fun name => Toml.lookup? name entries)
  | .array items => some ((List.range names.length).map fun place => items[place]?)
  | .tables list =>
    let items := list.reverse.map fun entries => Toml.table .explicit entries
    some ((List.range names.length).map fun place => items[place]?)
  | .date => some (names.map fun _ => none)
  | _ => none

def string? : Toml → Option String
  | .string value => some value
  | _ => none

def natural? : Toml → Option Nat
  | .integer value => if 0 ≤ value then some value.toNat else none
  | _ => none

def boolean? : Toml → Option Bool
  | .boolean value => some value
  | _ => none

def strings? : Toml → Option (List String)
  | .array items => items.mapM string?
  | _ => none

/-- A field that may be left out: `fallback` stands for it then, and a wrong kind is an error. -/
def field? {Value : Type} (read? : Toml → Option Value) (fallback : Value) :
    Option Toml → Option Value
  | none => some fallback
  | some value => read? value

/-- A field without a value of its own when it is left out. -/
def optional? {Value : Type} (read? : Toml → Option Value) : Option Toml → Option (Option Value)
  | none => some none
  | some value => (read? value).map some

/-- The settings under `paths`. -/
def withPaths? (config : Config) (value : Toml) : Option Config := do
  match ← fields? ["exclude"] value with
  | [exclude] => return { config with exclude := ← field? strings? config.exclude exclude }
  | _ => none

/-- The settings under `analysis`. -/
def withAnalysis? (config : Config) (value : Toml) : Option Config := do
  let names := ["unused_var_regex", "max_file_size", "ignore_trigger_error", "allow_disable",
    "threads"]
  match ← fields? names value with
  | [unusedVar, byteBudget, ignoreTriggerError, allowDisable, threads] =>
    return { config with
      unusedVar := ← optional? string? unusedVar
      byteBudget := ← field? natural? config.byteBudget byteBudget
      ignoreTriggerError := ← field? boolean? config.ignoreTriggerError ignoreTriggerError
      allowDisable := ← optional? string? allowDisable
      threads := ← optional? natural? threads }
  | _ => none

/-- Reads the settings; unknown keys are skipped, values of a wrong kind refused. -/
def ofText (text : String) : Except ConfigError Config :=
  let config? : Option Config := do
    let document ← Toml.ofText? text
    let config ← match Toml.lookup? "paths" document with
      | some value => withPaths? {} value
      | none => some {}
    match Toml.lookup? "analysis" document with
    | some value => withAnalysis? config value
    | none => some config
  match config? with
  | some config => .ok config
  | none => .error .malformed

/-! ### Patterns -/

/-- The set of texts in which an optional pattern finds a match. -/
def compile (key : String) : Option String → Except ConfigError (Option (String → Bool))
  | none => .ok none
  | some text =>
    match Regex.ofText? text with
    | some regex => .ok (some regex.findsIn)
    | none => .error (.regex key)

/-- The settings that the analysis of a file reads, once all patterns are well formed. -/
def options (config : Config) : Except ConfigError Options := do
  match config.exclude.find? fun pattern => (Glob.ofText? pattern).isNone with
  | some pattern => throw (.glob pattern)
  | none =>
    let discard ← compile "analysis.unused_var_regex" config.unusedVar
    let allowDisable ← compile "analysis.allow_disable" config.allowDisable
    return { discard, allowDisable, ignoreTriggerError := config.ignoreTriggerError }

/-- Whether a pattern that ends in `/` names a directory on the path. -/
def namesDirectory (pattern path : String) : Bool :=
  let directory := Text.trimEndWhile (· == '/') pattern
  Text.endsWith pattern "/" &&
    (Text.contains path ("/" ++ directory ++ "/") || Text.startsWith path (directory ++ "/"))

/-- Whether a pattern matches a whole path, its last component, or a directory on it. -/
def excludes (pattern path : String) : Bool :=
  let matched := (Glob.ofText? pattern).any fun glob =>
    glob.accepts path || (Path.fileName? path).any glob.accepts
  matched || namesDirectory pattern path

/-- Whether a search leaves a path out. -/
def isExcluded (config : Config) (path : String) : Bool :=
  config.exclude.any fun pattern => excludes pattern path

/-- The number of workers, where the machine offers `available` cores. -/
def workers (config : Config) (available : Nat) : Nat :=
  (config.threads.filter (0 < ·)).getD available

end Config

end PhpAudit
