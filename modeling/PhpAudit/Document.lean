/-
This file analyzes one source text. Every file is analyzed twice: first its symbols enter the index,
then, against the complete index, its issues are collected.
-/

import PhpAudit.FileWalk
import PhpAudit.Syntax.Parser.Program

namespace PhpAudit

/-- A pass over the files of a project. -/
inductive Phase where
  /-- Records symbols and reports nothing -/
  | indexing
  /-- Reports issues and leaves the index alone -/
  | reporting
deriving DecidableEq, Inhabited, Repr

namespace Phase

def name : Phase → String
  | indexing => "indexing"
  | reporting => "reporting"

def isReporting (phase : Phase) : Bool :=
  phase == .reporting

end Phase

/-- A named source text together with its syntax tree. -/
structure Document where
  source : Source
  parsed : ParsedFile

namespace Document

/-- Reads a source text; a text that is no program has one error and no statements. -/
def ofText (name text : String) : Document where
  source := .of name text
  parsed :=
    match Program.parse? text with
    | some statements => { statements }
    | none => { statements := [], errors := [.syntaxError 0 "syntax error"] }

def name (document : Document) : String :=
  document.source.name

/-- The number of bytes of the text. -/
def size (document : Document) : Nat :=
  document.source.text.utf8ByteSize

/-- Whether the text is a program. -/
def isWellFormed (document : Document) : Bool :=
  document.parsed.errors.isEmpty

/-- What a document declares, and its issues if the phase reports them. -/
def walk (index : Index) (options : Options) (phase : Phase) (document : Document) : FileResult :=
  FileWalk.run ⟨index, options, document.source⟩ phase.isReporting document.parsed

/--
Analyzes a document in a phase. While indexing, its symbols replace those that the file declared
before; this fails if the index is frozen.
-/
def analyze (index : Index) (options : Options) (phase : Phase) (document : Document) :
    Except IndexError (Index × FileResult) :=
  let result := document.walk index options phase
  match phase with
  | .indexing => (index.replaceFile document.name result.symbols).map (·, result)
  | .reporting => .ok (index, result)

end Document

end PhpAudit
