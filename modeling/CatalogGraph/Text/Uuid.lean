/-!
Identifiers of 128 bits that are made from random numbers.
-/
namespace CatalogGraph.Text

/-- The digits of a number in base 16, as many as asked for, the last ones of a larger number. -/
def hexDigits (size n : Nat) : List Char :=
  (List.range size).reverse.map fun place => Nat.digitChar (n / Nat.pow 16 place % 16)

/-- The identifier that two random numbers give: groups of 8, 4, 4, 4 and 12 digits, of which the
third group begins with the version 4 and the fourth with the variant. -/
def randomUuid (high low : Nat) : String :=
  let group := fun (size n place : Nat) => hexDigits size (n / Nat.pow 16 place)
  let groups := [group 8 high 8, group 4 high 0, '4' :: group 3 high 4,
    Nat.digitChar (8 + low / Nat.pow 16 15 % 4) :: group 3 low 12, group 12 low 0]
  String.ofList (['-'].intercalate groups)

end CatalogGraph.Text
