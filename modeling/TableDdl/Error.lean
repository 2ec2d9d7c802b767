import TableDdl.Position

/-!
# Errors

Everything that can be wrong with a text, a keyword or a file, and the sentence that reports it.
-/
namespace TableDdl

/-- Why the text of a file could not be had. -/
inductive FileFault
  | missing
  | directory
  | notText
  | other (report : String)
deriving DecidableEq

def FileFault.message : FileFault → String
  | .missing => "No such file or directory (os error 2)"
  | .directory => "Is a directory (os error 21)"
  | .notText => "stream did not contain valid UTF-8"
  | .other report => report

inductive Error
  /-- No token starts at the position; `found` is the text from there on. -/
  | lexical (position : Position) (found : String)
  /-- The token at the position, or the end, is none of those expected there. -/
  | unexpected (position : Position) (expected : List String) (found : String)
  | badKeyword (word : String)
  | file (fault : FileFault)
deriving DecidableEq

namespace Error

def message : Error → String
  | .lexical position found =>
    "lexical error at " ++ toString position ++ ": unexpected input '" ++ found ++ "'"
  | .unexpected position expected found =>
    "syntax error at " ++ toString position ++ ": expected " ++ " or ".intercalate expected
      ++ ", found " ++ found
  | .badKeyword word => "keyword configuration error: invalid keyword '" ++ word ++ "'"
  | .file fault => "I/O error: " ++ fault.message

def position? : Error → Option Position
  | .lexical position _ => some position
  | .unexpected position _ _ => some position
  | .badKeyword _ => none
  | .file _ => none

end Error
end TableDdl
