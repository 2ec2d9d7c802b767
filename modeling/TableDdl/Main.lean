import TableDdl.CommandLine

/-!
# The program

Reads the files that the arguments name and the standard input, and prints the report.
-/
namespace TableDdl

def FileFault.ofError : IO.Error → FileFault
  | .noFileOrDirectory .. => .missing
  | .inappropriateType .. => .directory
  | e => .other (toString e)

def readFile (path : String) : IO (Except FileFault ByteArray) := do
  try return .ok (← IO.FS.readBinFile path)
  catch e => return .error (.ofError e)

/-- The contents of the files that the options name. -/
def readInputs (o : Options) : IO CommandLine.Inputs := do
  let paths := o.file.toList.filter (· != "-") ++ o.keywordFile.toList
  let contents ← paths.mapM fun path => return (path, ← readFile path)
  let needsInput := o.file == some "-" || (o.file.isNone && o.statements.isEmpty)
  let input ← if needsInput then (← IO.getStdin).readBinToEnd else pure ByteArray.empty
  return ⟨fun path => (contents.lookup path).getD (.error .missing), input⟩

def printReport (report : Report) : IO UInt32 := do
  for line in report.lines do
    match line with
    | .output text => IO.println text
    | .error text => IO.eprintln text
  return report.code.toUInt32

end TableDdl

open TableDdl in
def main (arguments : List String) : IO UInt32 := do
  match CommandLine.read? arguments with
  | none => printReport CommandLine.usage
  | some o => printReport (CommandLine.runOptions (← readInputs o) o)
