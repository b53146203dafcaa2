/-
This file is the program: it gives a command line the real files, prints what the command has written
and ends with its exit code.
-/

import PhpAudit.Check
import Std.Time

namespace PhpAudit.LocalFiles

/-- The kind of thing at a path, if there is something. -/
def kindAt? (path : String) : IO (Option IO.FS.FileType) := do
  try
    return some (← (← IO.FS.realPath path).metadata).type
  catch _ =>
    return none

def isFile (path : String) : IO Bool :=
  return (← kindAt? path) == some .file

def isDirectory (path : String) : IO Bool :=
  return (← kindAt? path) == some .dir

/-- The cause of a failed access. -/
def fileError : IO.Error → FileError
  | .noFileOrDirectory .. => .notFound
  | .inappropriateType .. => .isDirectory
  | error => .other (toString error)

/-- The bytes of a file as text. -/
def readText (path : String) : IO (Except FileError String) := do
  if ← isDirectory path then
    return .error .isDirectory
  try
    match String.fromUTF8? (← IO.FS.readBinFile path) with
    | some text => return .ok text
    | none => return .error .notText
  catch error =>
    return .error (fileError error)

/-- The files below a directory; what cannot be listed is left out. -/
partial def filesBelow (path : String) : IO (List String) := do
  try
    let entries ← (← IO.FS.realPath path).readDir
    let below ← entries.toList.mapM fun entry => do
      let inner := Path.join path entry.fileName
      match ← kindAt? inner with
      | some .file => return [inner]
      | some .dir => filesBelow inner
      | _ => return []
    return below.flatten
  catch _ =>
    return []

/-- Empties a file, or makes it. -/
def createFile (path : String) : IO (Except FileError Unit) := do
  if ← isDirectory path then
    return .error .isDirectory
  try
    IO.FS.writeFile path ""
    return .ok ()
  catch error =>
    return .error (fileError error)

/-- The real files. -/
def disk : Disk IO where
  workingDirectory := return toString (← IO.currentDir)
  isFile := isFile
  isDirectory := isDirectory
  read := readText
  filesBelow := filesBelow
  create := createFile

/-- Writes the debug log; each line starts with the time. -/
def writeLog (path : String) (entries : List LogEntry) : IO Unit := do
  let time := (← Std.Time.PlainDateTime.now).format "uuuu-MM-dd HH:mm:ss.SSS"
  let lines := (entries.flatMap (·.lines)).map fun line => s!"[{time}] {line}\n"
  IO.FS.writeFile path (String.join lines)

end PhpAudit.LocalFiles

def main (arguments : List String) : IO UInt32 := do
  let outcome ← PhpAudit.Check.run PhpAudit.LocalFiles.disk 1 arguments
  let console := outcome.console
  match console.log with
  | some (path, entries) => PhpAudit.LocalFiles.writeLog path entries
  | none => pure ()
  (← IO.getStdout).putStr console.stdout
  (← IO.getStderr).putStr console.stderr
  return outcome.code.toUInt32
