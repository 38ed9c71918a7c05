import CatalogGraph.Text.Pieces

/-!
References to characters in XML text: by one of five names, or by number.
-/
namespace CatalogGraph.Xml

/-- The character that one of the predefined names stands for. -/
def namedChar? (name : List Char) : Option Char :=
  if name = ['l', 't'] then some '<'
  else if name = ['g', 't'] then some '>'
  else if name = ['a', 'm', 'p'] then some '&'
  else if name = ['a', 'p', 'o', 's'] then some '\''
  else if name = ['q', 'u', 'o', 't'] then some '"'
  else none

/-- The value of a digit of base 16, in either case. -/
def digitValue? (c : Char) : Option Nat :=
  if c.isDigit then some (c.toNat - '0'.toNat)
  else if 'a' ≤ c && c ≤ 'f' then some (c.toNat - 'a'.toNat + 10)
  else if 'A' ≤ c && c ≤ 'F' then some (c.toNat - 'A'.toNat + 10)
  else none

/-- The number that digits of a base stand for, if there is one and a word of 32 bits holds it. -/
def numeral? (base : Nat) (digits : List Char) : Option Nat :=
  if digits.isEmpty then none
  else digits.foldlM (fun n c => do
    let d ← digitValue? c
    if d < base && n * base + d < UInt32.size then some (n * base + d) else none) 0

/-- The character of a number, which is neither zero nor half of a pair. -/
def numberedChar? (n : Nat) : Option Char :=
  if n = 0 then none
  else if h : n.isValidChar then some (Char.ofNatAux n h) else none

/-- The character that the text between an ampersand and a semicolon stands for. -/
def referencedChar? : List Char → Option Char
  | '#' :: 'x' :: digits => (numeral? 16 digits).bind numberedChar?
  | '#' :: digits => (numeral? 10 digits).bind numberedChar?
  | name => namedChar? name

/-- The text with each reference replaced by its character; `open?` holds, in reverse, what
follows an ampersand that still lacks its semicolon. -/
def unescapeFrom : Option (List Char) → List Char → Option (List Char)
  | none, [] => some []
  | some _, [] => none
  | none, c :: rest =>
    if c = '&' then unescapeFrom (some []) rest else (unescapeFrom none rest).map (c :: ·)
  | some name, c :: rest =>
    if c = ';' then
      (referencedChar? name.reverse).bind fun x => (unescapeFrom none rest).map (x :: ·)
    else if c = '&' then none
    else unescapeFrom (some (c :: name)) rest

/-- The text with each reference replaced by its character. -/
def unescape (cs : List Char) : Option (List Char) := unescapeFrom none cs

end CatalogGraph.Xml
