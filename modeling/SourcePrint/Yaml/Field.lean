import SourcePrint.Text.Hex
import SourcePrint.Yaml.Document

namespace SourcePrint.Yaml

def isNullWord (text : String) : Bool := ["~", "null", "Null", "NULL"].contains text

/-- Digits to some base, of which there must be one. -/
def digitsValue? (base : Nat) (cs : List Char) : Option Nat := do
  let digits ← cs.mapM Text.hexValue?
  if digits ≠ [] ∧ digits.all (· < base) then return digits.foldl (fun n d => n * base + d) 0
  else none

/-- An unsigned number: decimal without a needless zero in front, or marked as hexadecimal, octal
or binary. A plus may stand before it. -/
def unsigned? (cs : List Char) : Option Nat :=
  let cs := if cs.head? = some '+' then cs.tail else cs
  match cs with
  | '0' :: 'x' :: digits => digitsValue? 16 digits
  | '0' :: 'o' :: digits => digitsValue? 8 digits
  | '0' :: 'b' :: digits => digitsValue? 2 digits
  | '0' :: _ :: _ => none
  | _ => digitsValue? 10 cs

variable {α : Type}

def required (decode : Node → Option α) (field : Option Node) : Option α := field.bind decode

def optional (default : α) (decode : Node → Option α) : Option Node → Option α
  | none => some default
  | some node => decode node

namespace Document

/-- A text field takes any scalar as it is written. -/
def text? (document : Document) (node : Node) : Option String :=
  match document.follow node with
  | .scalar text _ _ => some text
  | _ => none

/-- The text of a scalar that can be more than a text: a plain one, or a literal one that has the
standard tag for it. -/
def bare? (document : Document) (kind : String) (node : Node) : Option String :=
  match document.follow node with
  | .scalar text .plain _ => some text
  | .scalar text .literal tag => if tag = some (.standard kind) then some text else none
  | _ => none

/-- A plain scalar is null if it is empty or spells it. A tag makes it something else, except for
the one for null, which must be spelled then. -/
def orNull? (document : Document) (decode : Node → Option α) (node : Node) : Option (Option α) :=
  match document.follow node with
  | .scalar text .plain (some tag) =>
    if tag ≠ .standard "null" then (decode node).map some
    else if isNullWord text then some none
    else none
  | .scalar text .plain none =>
    if text = "" ∨ isNullWord text then some none else (decode node).map some
  | _ => (decode node).map some

def bool? (document : Document) (node : Node) : Option Bool :=
  match document.bare? "bool" node with
  | some text =>
    if ["true", "True", "TRUE"].contains text then some true
    else if ["false", "False", "FALSE"].contains text then some false
    else none
  | none => none

def natBelow? (document : Document) (bound : Nat) (node : Node) : Option Nat := do
  let n ← unsigned? (← document.bare? "int" node).toList
  if n < bound then return n else none

/-- A choice is named by a local tag on a scalar that is empty or null, or by the text of a scalar
without one. -/
def choice? (document : Document) (node : Node) : Option String :=
  match document.follow node with
  | .scalar text style tag =>
    match tag.bind Tag.localName? with
    | some name => if style = .plain ∧ (text = "" ∨ isNullWord text) then some name else none
    | none => some text
  | _ => none

/-- A sequence, or nothing for an empty one. -/
def list? (document : Document) (decode : Node → Option α) (node : Node) : Option (List α) :=
  match document.follow node with
  | .sequence items => items.mapM decode
  | .scalar "" .plain _ => some []
  | _ => none

/-- A mapping with scalar keys, or nothing for an empty one. -/
def entries? (document : Document) (node : Node) : Option (List (String × Node)) :=
  match document.follow node with
  | .mapping entries =>
    entries.mapM fun entry => (document.text? entry.1).map fun key => (key, entry.2)
  | .scalar "" .plain _ => some []
  | _ => none

/-- The values under known keys, each of which may occur once. Other keys are ignored. -/
def fields? (document : Document) (names : List String) (node : Node) :
    Option (List (Option Node)) := do
  let entries ← document.entries? node
  names.mapM fun name =>
    match entries.filter fun entry => entry.1 == name with
    | [] => some none
    | [entry] => some (some entry.2)
    | _ => none

end Document

end SourcePrint.Yaml
