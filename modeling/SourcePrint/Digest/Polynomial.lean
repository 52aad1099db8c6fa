import SourcePrint.Text.Utf16

namespace SourcePrint.Digest

/-- One step of the polynomial in 31, wrapping at 32 bits. -/
def polynomialStep (hash : Int32) (unit : Nat) : Int32 := hash * 31 + Int32.ofNat unit

/-- The polynomial in 31 whose coefficients are the UTF-16 units of the text. -/
def polynomial (text : String) : Int32 := (Text.units text.toList).foldl polynomialStep 0

end SourcePrint.Digest
