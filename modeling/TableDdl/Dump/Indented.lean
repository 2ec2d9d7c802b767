import TableDdl.Dump.Cursor
import TableDdl.Dump.Datum

/-!
# Indented dumps

A datum written for a reader: one field or item a line, four spaces deeper than what it is in,
with a comma after each.
-/
namespace TableDdl

/-- Very large and very small numbers have an exponent, and whole numbers a fraction. -/
def Number.dumpFormat : Number.Format where
  tie := .away
  marksWhole := true
  positional := some (-4, 16)
  marksExponent := false

namespace Datum

/-- One item of what spans several lines. -/
def line (margin item : String) : String := margin ++ item ++ ",\n"

mutual

/-- The datum, with `margin` before each line but the first. -/
def indentedFrom (margin : String) : Datum → String
  | .boolean b => if b then "true" else "false"
  | .natural n => String.ofList (Number.digitsOf n)
  | .number x => String.ofList (Number.dumpFormat.write x)
  | .text s => quoted s
  | .absent => "None"
  | .present d =>
    "Some(\n" ++ line (margin ++ "    ") (indentedFrom (margin ++ "    ") d) ++ margin ++ ")"
  | .list [] => "[]"
  | .list (d :: ds) => "[\n" ++ itemLines (margin ++ "    ") (d :: ds) ++ margin ++ "]"
  | .pair a b =>
    "(\n" ++ line (margin ++ "    ") (indentedFrom (margin ++ "    ") a)
      ++ line (margin ++ "    ") (indentedFrom (margin ++ "    ") b) ++ margin ++ ")"
  | .record name fields =>
    name ++ " \x7b\n" ++ fieldLines (margin ++ "    ") fields ++ margin ++ "\x7d"
  | .variant name => name
  | .wrapped name d =>
    name ++ "(\n" ++ line (margin ++ "    ") (indentedFrom (margin ++ "    ") d) ++ margin ++ ")"
  | .tagged name fields =>
    name ++ " \x7b\n" ++ fieldLines (margin ++ "    ") fields ++ margin ++ "\x7d"

def itemLines (margin : String) : List Datum → String
  | [] => ""
  | d :: ds => line margin (indentedFrom margin d) ++ itemLines margin ds

def fieldLines (margin : String) : List (String × Datum) → String
  | [] => ""
  | (name, d) :: rest =>
    line margin (name ++ ": " ++ indentedFrom margin d) ++ fieldLines margin rest

end

def indented (d : Datum) : String := indentedFrom "" d

end Datum
end TableDdl
