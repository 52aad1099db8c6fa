import SourcePrint.Text.Blank
import SourcePrint.Text.Hex

namespace SourcePrint.Text

/-- A blank other than the space is written by name or by code point, so that it can be seen. -/
def quoteChar (c : Char) : List Char :=
  if c = '\t' then ['\\', 't']
  else if c = '\n' then ['\\', 'n']
  else if c = '\r' then ['\\', 'r']
  else if c = '"' then ['\\', '"']
  else if c = '\\' then ['\\', '\\']
  else if c = '\x00' then ['\\', '0']
  else if isBlank c && c != ' ' then ['\\', 'u', '\x7b'] ++ hexDigits c.toNat ++ ['\x7d']
  else [c]

/-- The text between double quotes, with its invisible characters spelled out. -/
def quote (s : String) : String := String.ofList (['"'] ++ s.toList.flatMap quoteChar ++ ['"'])

end SourcePrint.Text
