/-!
White space in the sense of Unicode, and texts freed of it at their ends.
-/
namespace CatalogGraph.Text

/-- Whether a character has the property White_Space. -/
def isBlank (c : Char) : Bool :=
  let n := c.toNat
  (0x9 ≤ n && n ≤ 0xd) || n == 0x20 || n == 0x85 || n == 0xa0 || n == 0x1680 ||
    (0x2000 ≤ n && n ≤ 0x200a) || n == 0x2028 || n == 0x2029 || n == 0x202f || n == 0x205f ||
    n == 0x3000

/-- The characters that remain when white space is dropped at the end. -/
def trimEndChars (cs : List Char) : List Char :=
  (cs.reverse.dropWhile isBlank).reverse

/-- The characters that remain when white space is dropped at both ends. -/
def trimChars (cs : List Char) : List Char :=
  trimEndChars (cs.dropWhile isBlank)

/-- A text without the white space at its ends. -/
def trim (s : String) : String :=
  String.ofList (trimChars s.toList)

/-- Whether a text holds nothing but white space. -/
def isBlankText (s : String) : Bool :=
  s.toList.all isBlank

theorem toList_trim (s : String) : (trim s).toList = trimChars s.toList := by
  simp [trim]

end CatalogGraph.Text
