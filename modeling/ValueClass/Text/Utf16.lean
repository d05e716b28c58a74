/-!
# Text as 16-bit units

A character outside the first 65536 code points counts as two units, a high and a low surrogate.
-/

namespace ValueClass.Text

/-- The units of one character. -/
def charUnits (c : Char) : List UInt16 :=
  if c.toNat < 0x10000 then [c.toNat.toUInt16]
  else
    let offset := c.toNat - 0x10000
    [(0xd800 + offset / 0x400).toUInt16, (0xdc00 + offset % 0x400).toUInt16]

/-- The units of a text. -/
def units (text : String) : List UInt16 :=
  text.toList.flatMap charUnits

end ValueClass.Text
