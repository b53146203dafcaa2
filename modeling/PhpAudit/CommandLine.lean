/-
This file reads the arguments of the command line. They are read from left to right, and the first
one that asks for help or is wrong decides; what has to fit together is looked at last.
-/

import PhpAudit.Text.Basic

namespace PhpAudit

/-- What a user asks of the command that checks files. -/
structure CheckArgs where
  paths : List String
  config : Option String := none
  noConfig : Bool := false
  format : String := "text"
  debugLog : Option String := none
  verbose : Bool := false
deriving DecidableEq, Inhabited, Repr

/-- What help is about. -/
inductive HelpTopic where
  | program
  | check
  | help
deriving DecidableEq, Inhabited, Repr

/-- What a command line asks for. -/
inductive Request where
  | help (topic : HelpTopic)
  | version
  | check (args : CheckArgs)
deriving DecidableEq, Inhabited, Repr

/-- Why a command line is refused. -/
inductive UsageError where
  | noCommand
  | unknownCommand (name : String)
  | unexpected (argument : String)
  | missingValue (option : String)
  | unwantedValue (option : String)
  | repeated (option : String)
  | conflict (first second : String)
  | noPaths
deriving DecidableEq, Inhabited, Repr

/-! ### Words -/

/-- The form of an argument. -/
inductive Argument where
  /-- Two dashes: all that follows is plain -/
  | escape
  /-- Two dashes and a name, and what follows an equals sign -/
  | long (name : String) (value : Option String)
  /-- A dash and some letters -/
  | short (letters : List Char)
  | plain (text : String)
deriving DecidableEq, Inhabited, Repr

namespace Argument

def ofText (text : String) : Argument :=
  match Text.afterStart? text "--", Text.afterStart? text "-" with
  | some "", _ => escape
  | some option, _ =>
    match Text.splitOnce? option "=" with
    | some (name, value) => long name (some value)
    | none => long option none
  | none, some letters => if letters == "" then plain text else short letters.toList
  | none, none => plain text

/-- The text of an argument that can be the value of an option. -/
def value? (text : String) : Option String :=
  match ofText text with
  | plain value => some value
  | _ => none

end Argument

/-! ### The check command -/

/-- The arguments of the check command that were read so far. -/
structure CheckDraft where
  paths : List String := []
  config : Option String := none
  noConfig : Bool := false
  format : Option String := none
  debugLog : Option String := none
  verbose : Bool := false

namespace CheckDraft

/-- A path is not empty. -/
def filled (option path : String) : Except UsageError String :=
  if path == "" then .error (.missingValue option) else .ok path

/-- An option is given at most once. -/
def once {Value : Type} (option : String) (value : Value) : Option Value → Except UsageError Value
  | some _ => .error (.repeated option)
  | none => .ok value

def addPath (draft : CheckDraft) (path : String) : Except UsageError CheckDraft := do
  return { draft with paths := draft.paths ++ [← filled "PATHS" path] }

/-- The flags by name; `none` for a name that is no flag. -/
def setFlag? (draft : CheckDraft) : String → Option (Except UsageError CheckDraft)
  | "no-config" => some (
      if draft.noConfig then .error (.repeated "no-config") else .ok { draft with noConfig := true })
  | "verbose" => some (
      if draft.verbose then .error (.repeated "verbose") else .ok { draft with verbose := true })
  | _ => none

/-- The options with a value by name; `none` for a name that is no such option. -/
def setOption? (draft : CheckDraft) :
    String → Option (String → Except UsageError CheckDraft)
  | "config" => some fun value => do
    return { draft with config := ← once "config" (← filled "config" value) draft.config }
  | "format" => some fun value => do
    return { draft with format := ← once "format" value draft.format }
  | "debug-log" => some fun value => do
    return { draft with debugLog := ← once "debug-log" (← filled "debug-log" value) draft.debugLog }
  | _ => none

/-- The letters after one dash; `none` if they ask for help. -/
def setLetters (draft : CheckDraft) : List Char → Except UsageError (Option CheckDraft)
  | [] => .ok (some draft)
  | 'h' :: _ => .ok none
  | 'v' :: rest =>
    if draft.verbose then .error (.repeated "verbose")
    else setLetters { draft with verbose := true } rest
  | letter :: _ => .error (.unexpected ("-" ++ letter.toString))

/-- The request, once all arguments are read. -/
def finish (draft : CheckDraft) : Except UsageError Request :=
  if draft.paths.isEmpty then
    .error .noPaths
  else if draft.config.isSome && draft.noConfig then
    .error (.conflict "config" "no-config")
  else
    .ok (.check {
      paths := draft.paths
      config := draft.config
      noConfig := draft.noConfig
      format := draft.format.getD "text"
      debugLog := draft.debugLog
      verbose := draft.verbose })

/-- Reads the arguments of the check command. -/
def read (draft : CheckDraft) : List String → Except UsageError Request
  | [] => draft.finish
  | text :: rest =>
    match Argument.ofText text with
    | .escape => do (← rest.foldlM addPath draft).finish
    | .plain path => do read (← draft.addPath path) rest
    | .short letters => do
      match ← draft.setLetters letters with
      | some next => read next rest
      | none => return .help .check
    | .long "help" none => .ok (.help .check)
    | .long "help" (some _) => .error (.unwantedValue "help")
    | .long name value =>
      match draft.setFlag? name, draft.setOption? name, value with
      | some _, _, some _ => .error (.unwantedValue name)
      | some flagged, _, none => do read (← flagged) rest
      | none, some assign, some value => do read (← assign value) rest
      | none, some assign, none =>
        match rest with
        | [] => .error (.missingValue name)
        | next :: others =>
          match Argument.value? next with
          | some value => do read (← assign value) others
          | none => .error (.missingValue name)
      | none, none, _ => .error (.unexpected text)

end CheckDraft

/-! ### The whole line -/

namespace Request

/-- What the help command is asked about. -/
def helpAbout : List String → Except UsageError Request
  | [] => .ok (.help .program)
  | ["check"] => .ok (.help .check)
  | ["help"] => .ok (.help .help)
  | "check" :: name :: _ => .error (.unknownCommand name)
  | "help" :: name :: _ => .error (.unknownCommand name)
  | name :: _ => .error (.unknownCommand name)

/-- Reads a command line, without the name of the program. -/
def ofArguments : List String → Except UsageError Request
  | [] => .error .noCommand
  | text :: rest =>
    match Argument.ofText text with
    | .plain "check" => CheckDraft.read {} rest
    | .plain "help" => helpAbout rest
    | .plain name => .error (.unknownCommand name)
    | .short ('h' :: _) => .ok (.help .program)
    | .short ('V' :: _) => .ok .version
    | .long "help" none => .ok (.help .program)
    | .long "version" none => .ok .version
    | .long "help" (some _) => .error (.unwantedValue "help")
    | .long "version" (some _) => .error (.unwantedValue "version")
    | .escape =>
      match rest with
      | [] => .error .noCommand
      | name :: _ => .error (.unexpected name)
    | _ => .error (.unexpected text)

end Request

/-! ### Texts -/

namespace HelpTopic

def lines : HelpTopic → List String
  | program =>
    ["Finds undefined variables, unused variables and unreachable code in PHP projects", "",
      "Usage: phpverify <COMMAND>", "",
      "Commands:",
      "  check  Analyze files and directories",
      "  help   Print this message or the help of the given subcommand(s)", "",
      "Options:",
      "  -h, --help     Print help",
      "  -V, --version  Print version"]
  | check =>
    ["Analyze files and directories", "",
      "Usage: phpverify check [OPTIONS] <PATHS>...", "",
      "Arguments:",
      "  <PATHS>...  Files or directories to analyze", "",
      "Options:",
      "      --config <PATH>     Path to config file (default: auto-detect .phpverify.toml)",
      "      --no-config         Ignore config files",
      "      --format <FORMAT>   Output format: text, json [default: text]",
      "      --debug-log <PATH>  Write a debug log to this file",
      "  -v, --verbose           Show verbose output",
      "  -h, --help              Print help"]
  | help =>
    ["Print this message or the help of the given subcommand(s)", "",
      "Usage: phpverify help [COMMAND]...", "",
      "Arguments:",
      "  [COMMAND]...  Print help for the subcommand(s)"]

/-- The help about a topic. -/
def text (topic : HelpTopic) : String :=
  String.join (topic.lines.map (· ++ "\n"))

end HelpTopic

/-- The name of the program and its version. -/
def versionLine : String := "phpverify 0.1.0\n"

namespace UsageError

/-- What is wrong. -/
def reason : UsageError → String
  | noCommand => "a subcommand is required but one was not provided"
  | unknownCommand name => s!"unrecognized subcommand '{name}'"
  | unexpected argument => s!"unexpected argument '{argument}' found"
  | missingValue option => s!"a value is required for '{option}' but none was supplied"
  | unwantedValue option => s!"unexpected value for '--{option}' found"
  | repeated option => s!"the argument '--{option}' cannot be used multiple times"
  | conflict first second => s!"the argument '--{first}' cannot be used with '--{second}'"
  | noPaths => "the following required arguments were not provided: <PATHS>..."

/-- What is printed; a line without arguments gets the help. -/
def message : UsageError → String
  | noCommand => HelpTopic.program.text
  | error => "error: " ++ error.reason ++ "\n\nFor more information, try '--help'.\n"

end UsageError

end PhpAudit
