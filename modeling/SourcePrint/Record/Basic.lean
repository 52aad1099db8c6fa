import SourcePrint.Json.Basic

namespace SourcePrint

/-- The fields of a record, in the order of its declaration, as far as they are given. -/
structure Fields where
  /-- An array gives fields by position, an object by name. -/
  positional : Bool
  values : List (Option Json)

namespace Fields

/-- Reads a record whose fields have these names. Members with other names are ignored, but no
field may be given twice, and an array may not be longer than the record. -/
def ofJson? (names : List String) : Json → Option Fields
  | .obj members =>
    if names.all fun name => members.countP (·.1 == name) ≤ 1 then
      some ⟨false, names.map fun name => List.lookup name members⟩
    else none
  | .arr items =>
    if items.length ≤ names.length then
      some ⟨true, items.map some ++ List.replicate (names.length - items.length) none⟩
    else none
  | _ => none

end Fields

namespace Record

variable {α : Type}

def required (decode : Json → Option α) (value : Option Json) : Option α := value.bind decode

/-- A field that may be left out. If it is given it must be right. -/
def optional (default : α) (decode : Json → Option α) : Option Json → Option α
  | none => some default
  | some json => decode json

/-- Null, or something that can be read. -/
def nullable (decode : Json → Option α) : Json → Option (Option α)
  | .null => some none
  | json => (decode json).map some

def list? (decode : Json → Option α) (json : Json) : Option (List α) :=
  json.items?.bind fun items => items.mapM decode

/-- A case without content: its name, or an object that gives the name the value null. -/
def caseName? : Json → Option String
  | .str name => some name
  | .obj [(name, .null)] => some name
  | _ => none

/-- Offsets, lines and counts are 64-bit numbers in records. -/
def word64? : Json → Option Nat := Json.natBelow? UInt64.size

def word32? (json : Json) : Option UInt32 := (json.natBelow? UInt32.size).map UInt32.ofNat

def int32? : Json → Option Int32
  | .int n => if -2147483648 ≤ n ∧ n ≤ 2147483647 then some (Int32.ofInt n) else none
  | _ => none

def option (encode : α → Json) : Option α → Json
  | some a => encode a
  | none => .null

end Record

end SourcePrint
