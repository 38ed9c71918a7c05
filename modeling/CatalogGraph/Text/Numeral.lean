/-!
Numerals: numbers written in decimal digits.
-/
namespace CatalogGraph.Text

/-- The number of a row of digits. -/
def numberOf (digits : List Char) : Nat :=
  digits.foldl (fun n c => n * 10 + (c.toNat - '0'.toNat)) 0

/-- The number below a limit that a text of digits states; a plus may stand in front. -/
def numeral? (limit : Nat) (s : String) : Option Nat :=
  let digits := match s.toList with
    | '+' :: rest => rest
    | cs => cs
  if digits.isEmpty || !digits.all Char.isDigit then none
  else if numberOf digits < limit then some (numberOf digits) else none

/-- The number that a word of 64 bits holds. -/
def word? (s : String) : Option Nat := numeral? UInt64.size s

/-- Different numbers have different numerals. -/
theorem toString_inj {a b : Nat} (same : toString a = toString b) : a = b := by
  have digits : Nat.toDigits 10 a = Nat.toDigits 10 b := by
    rw [← Nat.toList_repr, ← Nat.toList_repr]
    exact congrArg String.toList same
  rw [← Nat.ofDigitChars_ten_toDigits (n := a), digits, Nat.ofDigitChars_ten_toDigits]

end CatalogGraph.Text
