namespace SourcePrint.Text

/-- A character above U+FFFF takes two units, each carrying ten bits of what lies above. -/
def charUnits (c : Char) : List Nat :=
  if c.toNat < 0x10000 then [c.toNat]
  else
    let above := c.toNat - 0x10000
    [0xD800 + above / 0x400, 0xDC00 + above % 0x400]

def units (cs : List Char) : List Nat := cs.flatMap charUnits

end SourcePrint.Text
