import SourcePrint.Json.Basic
import SourcePrint.Text.Hex

namespace SourcePrint.Json

/-- Quotes, backslashes and control characters are written as escapes, all else as it is. -/
def escapeChar (c : Char) : List Char :=
  if c = '"' then ['\\', '"']
  else if c = '\\' then ['\\', '\\']
  else if c = '\x08' then ['\\', 'b']
  else if c = '\x0c' then ['\\', 'f']
  else if c = '\n' then ['\\', 'n']
  else if c = '\r' then ['\\', 'r']
  else if c = '\t' then ['\\', 't']
  else if c.toNat < 0x20 then
    ['\\', 'u', '0', '0', Text.hexDigit (c.toNat / 16), Text.hexDigit (c.toNat % 16)]
  else [c]

def quoted (s : String) : String := String.ofList (['"'] ++ s.toList.flatMap escapeChar ++ ['"'])

/-- The text of a value, without blanks. -/
def render : Json → String
  | .null => "null"
  | .bool value => if value then "true" else "false"
  | .int value => toString value
  | .real spelling => spelling
  | .str value => quoted value
  | .arr items => "[" ++ ",".intercalate (items.map render) ++ "]"
  | .obj members =>
    "\x7b" ++ ",".intercalate (members.map fun m => quoted m.1 ++ ":" ++ render m.2) ++ "\x7d"
decreasing_by
  · have := List.sizeOf_lt_of_mem ‹_ ∈ items›
    simp only [arr.sizeOf_spec]
    omega
  · have := List.sizeOf_lt_of_mem ‹_ ∈ members›
    simp only [obj.sizeOf_spec]
    cases m
    simp only [Prod.mk.sizeOf_spec] at this ⊢
    omega

end SourcePrint.Json
