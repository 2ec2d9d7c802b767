import TableDdl.Spelling

/-!
# Data

A value as a plain tree of records, variants, lists and atoms. Every node of a statement has one;
the dumps of a statement are written from it.
-/
namespace TableDdl

inductive Datum
  | boolean (b : Bool)
  | natural (n : Nat)
  | number (x : Number.Binary64)
  | text (s : String)
  | absent
  | present (d : Datum)
  | list (items : List Datum)
  | pair (first second : Datum)
  | record (name : String) (fields : List (String × Datum))
  /-- A variant without content. -/
  | variant (name : String)
  /-- A variant around one value. -/
  | wrapped (name : String) (content : Datum)
  /-- A variant with named fields. -/
  | tagged (name : String) (fields : List (String × Datum))

namespace Datum

def option {α : Type} (datum : α → Datum) : Option α → Datum
  | none => .absent
  | some x => .present (datum x)

def array {α : Type} (datum : α → Datum) (items : List α) : Datum := .list (items.map datum)

def texts (items : List String) : Datum := array .text items

def spelled {α : Type} [Spelled α] (value : α) : Datum := .variant (Spelled.label value)

def uint32 (n : UInt32) : Datum := .natural n.toNat

def uint64 (n : UInt64) : Datum := .natural n.toNat

end Datum
end TableDdl
