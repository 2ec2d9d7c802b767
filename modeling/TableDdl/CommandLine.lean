import TableDdl.Session

/-!
# Command line

The arguments are statements and options, in any order. Without a statement and a file the
standard input is a session; otherwise all scripts are run, the file last.
-/
namespace TableDdl

structure Options where
  statements : List String := []
  file : Option String := none
  format : Option Format := none
  keywordFile : Option String := none
  verbose : Bool := false
deriving DecidableEq

/-- The options that take a value. -/
inductive Setting
  | file
  | format
  | keywordFile
deriving DecidableEq

def Format.ofName? : String → Option Format
  | "debug" => some .debug
  | "json" => some .json
  | "sql" => some .sql
  | _ => none

namespace Options

/-- The options with a value set. No option is given twice, and no path is empty. -/
def set? (o : Options) (setting : Setting) (value : String) : Option Options :=
  match setting with
  | .file => if o.file.isSome || value.isEmpty then none else some { o with file := some value }
  | .format =>
    if o.format.isSome then none
    else (Format.ofName? value).map fun f => { o with format := some f }
  | .keywordFile =>
    if o.keywordFile.isSome || value.isEmpty then none
    else some { o with keywordFile := some value }

def setVerbose? (o : Options) : Option Options :=
  if o.verbose then none else some { o with verbose := true }

def addStatements (o : Options) (texts : List String) : Options :=
  { o with statements := o.statements ++ texts }

end Options

namespace CommandLine

/-- What an argument may be before the argument that ends the options. -/
inductive Argument
  | statement (text : String)
  /-- Two hyphens: all that follows are statements. -/
  | endOfOptions
  | long (name : String) (value : Option String)
  | short (flags : List Char)

/-- A hyphen by itself is no option. -/
def classify (argument : String) : Argument :=
  match argument.toList with
  | ['-', '-'] => .endOfOptions
  | '-' :: '-' :: rest =>
    match rest.dropWhile (· != '=') with
    | [] => .long (String.ofList rest) none
    | _ :: value => .long (String.ofList (rest.takeWhile (· != '='))) (some (String.ofList value))
  | '-' :: c :: rest => .short (c :: rest)
  | _ => .statement argument

def setting? : String → Option Setting
  | "file" => some .file
  | "format" => some .format
  | "keywords" => some .keywordFile
  | _ => none

/-- Options that are complete, or that wait for the value of one in the next argument. -/
abbrev Pending := Options × Option Setting

/-- Short options may share one hyphen; what follows the one with a value is its value. -/
def readShort (o : Options) : List Char → Option Pending
  | [] => some (o, none)
  | 'v' :: rest => o.setVerbose?.bind fun o => readShort o rest
  | ['f'] => some (o, some .file)
  | 'f' :: '=' :: value => (o.set? .file (String.ofList value)).map (·, none)
  | 'f' :: value => (o.set? .file (String.ofList value)).map (·, none)
  | _ => none

def readLong (o : Options) (name : String) (value : Option String) : Option Pending :=
  match setting? name, value with
  | some setting, some value => (o.set? setting value).map (·, none)
  | some setting, none => some (o, some setting)
  | none, none => if name == "verbose" then o.setVerbose?.map (·, none) else none
  | none, some _ => none

/-- Reads the arguments after those that gave the pending options; none on wrong usage. -/
def readFrom : Pending → List String → Option Options
  | (o, none), [] => some o
  | (_, some _), [] => none
  | (o, some setting), argument :: rest =>
    match classify argument with
    | .statement value => (o.set? setting value).bind fun o => readFrom (o, none) rest
    | _ => none
  | (o, none), argument :: rest =>
    match classify argument with
    | .statement text => readFrom (o.addStatements [text], none) rest
    | .endOfOptions => some (o.addStatements rest)
    | .long name value => (readLong o name value).bind fun p => readFrom p rest
    | .short flags => (readShort o flags).bind fun p => readFrom p rest

def read? (arguments : List String) : Option Options := readFrom ({}, none) arguments

def usage : Report where
  code := 2
  lines := [.error ("usage: [STATEMENTS]... [-f|--file PATH] [--format debug|json|sql] "
    ++ "[--keywords PATH] [-v|--verbose]")]

def failure (message : String) : Report := ⟨1, [.fault message]⟩

/-- The report on scripts that were run: one that printed an error makes the run fail. -/
def reportOf (lines : List Line) : Report := ⟨if lines.any Line.isError then 1 else 0, lines⟩

/-- What there is to read: the files, and the standard input. -/
structure Inputs where
  file : String → Except FileFault ByteArray
  standardInput : ByteArray

/-- A hyphen stands for the standard input. -/
def Inputs.script (inputs : Inputs) (path : String) : Except FileFault String :=
  (if path == "-" then .ok inputs.standardInput else inputs.file path).bind fun bytes =>
    match String.fromUTF8? bytes with
    | some text => .ok text
    | none => .error .notText

def keywordsOf (inputs : Inputs) : Option String → Except Error Keywords
  | none => .ok .mysql
  | some path => Keywords.ofFile (inputs.file path)

/-- All scripts in order, the file after the statements. -/
def scripts (inputs : Inputs) (o : Options) : Except String (List String) :=
  match o.file with
  | none => .ok o.statements
  | some path =>
    match inputs.script path with
    | .ok text => .ok (o.statements ++ [text])
    | .error fault => .error ("cannot read " ++ path ++ ": " ++ fault.message)

/-- The keywords are read before the file. An error in a session does not make the run fail. -/
def runOptions (inputs : Inputs) (o : Options) : Report :=
  let format := o.format.getD .debug
  match keywordsOf inputs o.keywordFile with
  | .error e => failure e.message
  | .ok keywords =>
    match scripts inputs o with
    | .error message => failure message
    | .ok [] => Session.run keywords format "" (Session.lines inputs.standardInput)
    | .ok texts => reportOf (texts.flatMap (Script.run keywords format))

def run (inputs : Inputs) (arguments : List String) : Report :=
  match read? arguments with
  | none => usage
  | some o => runOptions inputs o

end CommandLine
end TableDdl
