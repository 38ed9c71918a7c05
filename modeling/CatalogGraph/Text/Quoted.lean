import CatalogGraph.Text.Extending
import CatalogGraph.Text.Ignorable
import CatalogGraph.Text.Printable

/-!
Texts shown between double quotes, in which a character that would not be seen by itself is
written by its number.
-/
namespace CatalogGraph.Text

/-- A character by its number in base 16. -/
def numbered (c : Char) : List Char :=
  ['\\', 'u', '\x7b'] ++ Nat.toDigits 16 c.toNat ++ ['\x7d']

/-- A character between double quotes. -/
def quotedChar (c : Char) : List Char :=
  match c with
  | '\x00' => ['\\', '0']
  | '\t' => ['\\', 't']
  | '\n' => ['\\', 'n']
  | '\r' => ['\\', 'r']
  | '"' => ['\\', '"']
  | '\\' => ['\\', '\\']
  | c => if isExtending c || isIgnorable c || !isPrintable c then numbered c else [c]

/-- A text between double quotes. -/
def quoted (s : String) : String :=
  String.ofList ('"' :: s.toList.flatMap quotedChar ++ ['"'])

end CatalogGraph.Text
