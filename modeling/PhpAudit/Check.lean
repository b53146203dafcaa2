/-
This file carries out a command line: it loads the settings, finds the files, analyzes them and
writes the report. It touches files only through a disk and collects what it prints, so it can be
run on a tree in memory as well as on real files.
-/

import PhpAudit.CommandLine
import PhpAudit.FileTree
import PhpAudit.Issue.Format
import PhpAudit.Project

namespace PhpAudit

/-- Why a check comes to no report. -/
inductive CheckError where
  | format (name : String)
  | unreadableConfig (path : String) (cause : FileError)
  | malformedConfig (path : String)
  | invalidConfig (cause : ConfigError)
  | noSuchPath (path : String)
  | index (cause : IndexError)
deriving DecidableEq, Inhabited, Repr

namespace CheckError

/-- The chain of causes, from the outermost to the innermost. -/
def chain : CheckError → List String
  | format name => [s!"Invalid output format '{name}'. Valid options: text, json"]
  | unreadableConfig path cause => [s!"Failed to read {path}", cause.message, cause.message]
  | malformedConfig path => [s!"Failed to parse {path}", "malformed document"]
  | invalidConfig cause =>
    ["Invalid configuration", "Configuration error",
      match cause with
      | .malformed => "malformed document"
      | .regex key => s!"Invalid regex for {key}"
      | .glob pattern => "Invalid exclude pattern " ++ Issue.quoted pattern]
  | noSuchPath path =>
    [s!"Failed to read {path}", "no such file or directory", "no such file or directory"]
  | index cause => [cause.message]

def message (error : CheckError) : String :=
  Text.join ": " error.chain

end CheckError

/-- What a command has written. -/
structure Console where
  stdout : String := ""
  stderr : String := ""
  /-- The path of the debug log, if there is one, and its entries -/
  log : Option (String × List LogEntry) := none

/-- How a command ended, and what it has written. -/
structure Outcome where
  code : Nat
  console : Console

namespace Check

/-- The name of the file with the settings of a project. -/
def configName : String := ".phpverify.toml"

variable {m : Type → Type} [Monad m]

/-- A command under way: it may fail, it writes, and it uses a disk. -/
abbrev Session (m : Type → Type) := ExceptT CheckError (StateT Console m)

def say (text : String) : Session m Unit :=
  modify fun console => { console with stdout := console.stdout ++ text }

def warn (text : String) : Session m Unit :=
  modify fun console => { console with stderr := console.stderr ++ text }

/-- Adds an entry to the debug log, if there is one. -/
def note (entry : LogEntry) : Session m Unit :=
  modify fun console =>
    { console with log := console.log.map fun (path, entries) => (path, entries ++ [entry]) }

/-- Goes on with a result, or fails for the reason that is given. -/
def orFail {Error Value : Type} (reason : Error → CheckError) :
    Except Error Value → Session m Value
  | .ok value => pure value
  | .error error => throw (reason error)

/-! ### Steps -/

/-- Opens the debug log. A log that cannot be opened is no reason to stop. -/
def openLog (disk : Disk m) (args : CheckArgs) : Session m Unit := do
  match args.debugLog with
  | none => return ()
  | some path =>
    match ← disk.create path with
    | .ok () =>
      modify fun console => { console with log := some (path, []) }
      if args.verbose then
        say s!"Debug: Debug log writing to {path}\n"
    | .error error => warn s!"Warning: Failed to initialize debug log: {error.message}\n"

/-- The settings in a file. -/
def readConfig (disk : Disk m) (path : String) : Session m Config := do
  let text ← orFail (.unreadableConfig path) (← disk.read path)
  orFail (fun _ => .malformedConfig path) (Config.ofText text)

/-- The nearest file with settings, from the working directory upward. -/
def findConfig? (disk : Disk m) : Session m (Option String) := do
  let directories := Path.ancestors (← disk.workingDirectory)
  directories.findSomeM? fun directory => do
    let path := Path.join directory configName
    return if ← disk.isFile path then some path else none

/-- The settings that apply. Those that are found by themselves are noted once they are read. -/
def loadConfig (disk : Disk m) (args : CheckArgs) (chatty : Bool) : Session m Config := do
  if args.noConfig then
    return {}
  else match args.config with
    | some path =>
      note (.loadingConfig path)
      let config ← readConfig disk path
      if chatty then
        say s!"Using config: {path}\n"
      return config
    | none =>
      match ← findConfig? disk with
      | some path =>
        let config ← readConfig disk path
        note (.loadingConfig path)
        if chatty then
          say s!"Using config: {path}\n"
        return config
      | none => return {}

/-- A search takes the files of the language that are not excluded. -/
def isWanted (config : Config) (path : String) : Bool :=
  Path.extension? path == some "php" && !config.isExcluded path

/-- The files that a path stands for: a file for itself, a directory for what a search finds. -/
def expand (disk : Disk m) (config : Config) (path : String) : Session m (List String) := do
  if ← disk.isFile path then
    return [path]
  else if ← disk.isDirectory path then
    return (← disk.filesBelow path).filter (isWanted config)
  else
    throw (.noSuchPath path)

/-- The files to analyze, in order. -/
def collect (disk : Disk m) (config : Config) (paths : List String) : Session m (List String) := do
  return Path.sorted (← paths.mapM (expand disk config)).flatten

def input (disk : Disk m) (path : String) : Session m Input := do
  match ← disk.read path with
  | .ok text => return .ofText path text
  | .error error => return { name := path, content := .error error.message }

/-- The last line of the text report. -/
def summary (issues : List Issue) : String :=
  if issues.isEmpty then
    "No issues found\n"
  else
    let errors := Issue.count .error issues
    let warnings := Issue.count .warning issues
    s!"Found {issues.length} issues ({errors} errors and {warnings} warnings)\n"

/-- The texts of the files that issues are about. -/
def sources (disk : Disk m) (issues : List Issue) : Session m (List (String × String)) := do
  let texts ← (issues.map (·.file)).eraseDups.mapM fun file => do
    return (← disk.read file).toOption.map (file, ·)
  return texts.filterMap id

/-! ### The command -/

/-- Checks files and reports their issues. `cores` is the number of workers the machine offers. -/
def check (disk : Disk m) (cores : Nat) (args : CheckArgs) : Session m (List Issue) := do
  let format ← match OutputFormat.ofName? args.format with
    | some format => pure format
    | none => throw (.format args.format)
  let chatty := args.verbose && format == .text
  openLog disk args
  let config ← loadConfig disk args chatty
  note (.settings config.exclude.length (config.workers cores) config.byteBudget
    (config.unusedVar.getD "^_$"))
  let project ← orFail .invalidConfig (Project.ofConfig config)
  if chatty then
    say ("Analyzing: " ++ Text.join ", " args.paths ++ "\n")
  let inputs ← (← collect disk config args.paths).mapM (input disk)
  let run ← orFail .index (project.run inputs)
  run.log.forM note
  let known ← sources disk run.issues
  say (format.write (known.lookup ·) run.issues)
  if format == .text then
    say (summary run.issues)
  return run.issues

/-- Carries out a command line. Errors among the issues show in the exit code. -/
def run (disk : Disk m) (cores : Nat) (arguments : List String) : m Outcome := do
  match Request.ofArguments arguments with
  | .error error => return { code := 2, console := { stderr := error.message } }
  | .ok (.help topic) => return { code := 0, console := { stdout := topic.text } }
  | .ok .version => return { code := 0, console := { stdout := versionLine } }
  | .ok (.check args) =>
    match ← (check disk cores args).run.run {} with
    | (.ok issues, console) =>
      return { code := if issues.any (·.isError) then 1 else 0, console }
    | (.error error, console) =>
      let stderr := console.stderr ++ "Error: " ++ error.message ++ "\n"
      return { code := 1, console := { console with stderr } }

end Check

end PhpAudit
