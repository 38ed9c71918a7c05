/-!
Percent escapes: the bytes of a character that may not stand in the segment of an IRI's path, each
as a percent sign with two digits of base 16.
-/
namespace CatalogGraph.Text

/-- The characters that a segment holds as they are: letters, digits, and some marks of ASCII. -/
def isSegmentChar (c : Char) : Bool :=
  c.isAlphanum || ['-', '.', '_', '~', '!', '$', '&', '\'', '(', ')', '*', '+', ',', ';', '=',
    ':', '@'].contains c

/-- The digit of base 16 for a number below 16. -/
def upperHexDigit (n : Nat) : Char :=
  if n < 10 then Char.ofNat ('0'.toNat + n) else Char.ofNat ('A'.toNat + (n - 10))

/-- A byte as a percent sign with two digits. -/
def percentByte (b : UInt8) : List Char :=
  ['%', upperHexDigit (b.toNat / 16), upperHexDigit (b.toNat % 16)]

/-- A character as a segment holds it. -/
def percentChar (c : Char) : List Char :=
  if isSegmentChar c then [c] else (String.utf8EncodeChar c).flatMap percentByte

/-- A text with the characters escaped that a segment does not hold. -/
def percentEscape (s : String) : String := String.ofList (s.toList.flatMap percentChar)

end CatalogGraph.Text
