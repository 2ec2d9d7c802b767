import TableDdl.Dump.Datum

/-!
# JSON dumps

A datum as JSON: a record is an object, a variant its name or an object with its name as the
only key, and an absent value is null. The pretty form has one member a line, indented by two.
-/
namespace TableDdl

/-- Numbers in JSON mark whole numbers and positive exponents. -/
def Number.jsonFormat : Number.Format where
  tie := .even
  marksWhole := true
  positional := some (-5, 16)
  marksExponent := true

inductive Json
  | null
  | boolean (b : Bool)
  | natural (n : Nat)
  | number (x : Number.Binary64)
  | string (s : String)
  | array (items : List Json)
  | object (members : List (String × Json))

mutual

def Datum.json : Datum → Json
  | .boolean b => .boolean b
  | .natural n => .natural n
  | .number x => .number x
  | .text s => .string s
  | .absent => .null
  | .present d => d.json
  | .list items => .array (Datum.jsonItems items)
  | .pair a b => .array [a.json, b.json]
  | .record _ fields => .object (Datum.jsonMembers fields)
  | .variant name => .string name
  | .wrapped name d => .object [(name, d.json)]
  | .tagged name fields => .object [(name, .object (Datum.jsonMembers fields))]

def Datum.jsonItems : List Datum → List Json
  | [] => []
  | d :: ds => d.json :: Datum.jsonItems ds

def Datum.jsonMembers : List (String × Datum) → List (String × Json)
  | [] => []
  | (name, d) :: rest => (name, d.json) :: Datum.jsonMembers rest

end

namespace Json

def fourHexDigits (n : Nat) : List Char :=
  let ds := Nat.toDigits 16 n
  List.replicate (4 - ds.length) '0' ++ ds

def escapeChar (c : Char) : List Char :=
  match c with
  | '"' => ['\\', '"']
  | '\\' => ['\\', '\\']
  | '\x08' => ['\\', 'b']
  | '\x0c' => ['\\', 'f']
  | '\n' => ['\\', 'n']
  | '\r' => ['\\', 'r']
  | '\t' => ['\\', 't']
  | _ => if c.toNat < 0x20 then '\\' :: 'u' :: fourHexDigits c.toNat else [c]

def quoted (text : String) : String :=
  String.ofList ('"' :: text.toList.flatMap escapeChar ++ ['"'])

mutual

/-- The value, with `margin` before each line but the first. -/
def prettyFrom (margin : String) : Json → String
  | .null => "null"
  | .boolean b => if b then "true" else "false"
  | .natural n => String.ofList (Number.digitsOf n)
  | .number x => String.ofList (Number.jsonFormat.write x)
  | .string s => quoted s
  | .array [] => "[]"
  | .array (j :: js) =>
    "[\n" ++ itemLines (margin ++ "  ") (j :: js) ++ "\n" ++ margin ++ "]"
  | .object [] => "\x7b\x7d"
  | .object (m :: ms) =>
    "\x7b\n" ++ memberLines (margin ++ "  ") (m :: ms) ++ "\n" ++ margin ++ "\x7d"

def itemLines (margin : String) : List Json → String
  | [] => ""
  | [j] => margin ++ prettyFrom margin j
  | j :: k :: rest => margin ++ prettyFrom margin j ++ ",\n" ++ itemLines margin (k :: rest)

def memberLines (margin : String) : List (String × Json) → String
  | [] => ""
  | [(name, j)] => margin ++ quoted name ++ ": " ++ prettyFrom margin j
  | (name, j) :: m :: rest =>
    margin ++ quoted name ++ ": " ++ prettyFrom margin j ++ ",\n" ++ memberLines margin (m :: rest)

end

def pretty (j : Json) : String := prettyFrom "" j

end Json
end TableDdl
