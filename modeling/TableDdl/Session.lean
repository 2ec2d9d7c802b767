import TableDdl.Dump.Indented
import TableDdl.Dump.Json
import TableDdl.Script
import TableDdl.Statement
import TableDdl.Text.Cluster

/-!
# Running scripts

A script is answered statement by statement, on standard output or as an error. In a session
the text comes line by line, and a script is run when a line ends with a semicolon. The report of
a session fails only where an erasure in a line has no result.
-/
namespace TableDdl

/-- The form in which a statement is printed. -/
inductive Format
  | debug
  | json
  | sql
deriving DecidableEq

/-- One printed text with a line feed after it. -/
inductive Line
  | output (text : String)
  | error (text : String)
deriving DecidableEq

def Line.isError : Line → Bool
  | .output _ => false
  | .error _ => true

def Line.fault (message : String) : Line := .error ("ERROR: " ++ message)

/-- What a run prints, and its exit code. -/
structure Report where
  code : UInt8
  lines : List Line
deriving DecidableEq

/-- The report of a run that has printed some lines before. -/
def Report.after (report : Report) (before : List Line) : Report :=
  { report with lines := before ++ report.lines }

def Format.print (s : Statement) : Format → String
  | .debug => s.datum.indented
  | .json => s.datum.json.pretty
  | .sql => s.sql ++ ";"

def Script.answer (format : Format) : Except Error Statement → Line
  | .ok s => .output (format.print s)
  | .error e => .fault e.message

def Script.run (keywords : Keywords) (format : Format) (sql : String) : List Line :=
  (Script.parse keywords sql).map fun (_, result) => answer format result

namespace Session

open Text

/-- Why a line cannot be had. -/
inductive LineFault
  | notText
  /-- A backspace in it would take back part of a character. -/
  | cutCharacter
deriving DecidableEq

/-- The lines of an input, each with whether a line feed ends it. -/
def splitLines : List UInt8 → List (List UInt8 × Bool)
  | [] => []
  | b :: bs =>
    if b = 10 then ([], true) :: splitLines bs
    else match splitLines bs with
      | [] => [([b], false)]
      | (line, ended) :: lines => (b :: line, ended) :: lines

/-- The text of a line, without a carriage return before its line feed. -/
def lineText (line : List UInt8 × Bool) : Except LineFault String :=
  match line with
  | (bytes, ended) =>
    let kept := if ended && bytes.getLast? == some 13 then bytes.dropLast else bytes
    match String.fromUTF8? ⟨kept.toArray⟩ with
    | none => .error .notText
    | some text =>
      match withErasures? text.toList with
      | none => .error .cutCharacter
      | some typed => .ok (String.ofList typed)

def lines (input : ByteArray) : List (Except LineFault String) :=
  (splitLines input.toList).map lineText

/-- The text so far with a line after it. -/
def appendLine (buffer line : String) : String :=
  if buffer.isEmpty then line else buffer ++ "\n" ++ line

/-- Runs a session on the lines that are left. One of two words ends it where no text is
pending, and pending text is dropped at the end. A line that is no text is reported and ends it;
one with a cut character breaks it off. -/
def run (keywords : Keywords) (format : Format) (buffer : String) :
    List (Except LineFault String) → Report
  | [] => ⟨0, []⟩
  | .error .notText :: _ => ⟨0, [.fault FileFault.notText.message]⟩
  | .error .cutCharacter :: _ => ⟨101, []⟩
  | .ok line :: rest =>
    let trimmed := trim line.toList
    let word := String.ofList trimmed
    if buffer.isEmpty && (word == "quit" || word == "exit") then ⟨0, []⟩
    else if trimmed.getLast? == some ';' then
      (run keywords format "" rest).after (Script.run keywords format (appendLine buffer line))
    else run keywords format (appendLine buffer line) rest

end Session
end TableDdl
