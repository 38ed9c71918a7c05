/-!
The shortest decimal that reads back as a given double: of the decimals with the fewest digits in
the interval of reals that round to it, the one nearest to it.
-/
namespace CatalogGraph.Decimal

/-- A finite positive double, `mantissa * 2 ^ exponent`. -/
structure Binary where
  mantissa : Nat
  exponent : Int
  /-- Whether the double below lies only half as far away as the one above. -/
  narrowBelow : Bool
deriving DecidableEq, Repr

/-- The double that 63 bits without a sign stand for. -/
def Binary.ofBits (bits : Nat) : Binary :=
  let unit := Nat.pow 2 52
  let field : Nat := bits / unit % 2048
  let fraction : Nat := bits % unit
  if field = 0 then ⟨fraction, -1074, false⟩
  else ⟨unit + fraction, (field : Int) - 1075, fraction = 0 && 1 < field⟩

/-- A decimal, `digits * 10 ^ exponent`. -/
structure Scientific where
  digits : Nat
  exponent : Int
deriving DecidableEq, Repr

/-- The number of decimal digits of a positive number. -/
def digitCount (n : Nat) : Nat := (Nat.toDigits 10 n).length

/-- The place of the first digit of `num / den`, 0 for the units. -/
def leadingPlace (num den : Nat) : Int :=
  if den ≤ num then (digitCount (num / den) : Int) - 1
  else
    let guess := digitCount (den / num)
    if den ≤ num * Nat.pow 10 (guess - 1) then -(guess - 1 : Nat) else -(guess : Int)

/-- Whether `a / b` lies in the interval of reals that round to a double, where `a / b` is given
in quarters of the double's last place. -/
def Binary.admits (x : Binary) (a b : Nat) : Bool :=
  let low := 4 * x.mantissa - (if x.narrowBelow then 1 else 2)
  let high := 4 * x.mantissa + 2
  if x.mantissa % 2 = 0 then low * b ≤ a && a ≤ high * b else low * b < a && a < high * b

/-- The nearer of the two neighbours with `count` digits that a double reads back from. -/
def Binary.withDigits (x : Binary) (count : Nat) : Option Scientific :=
  let num := x.mantissa * Nat.pow 2 x.exponent.toNat
  let den := Nat.pow 2 (-x.exponent).toNat
  let place := leadingPlace num den - (count - 1 : Nat)
  let up := Nat.pow 10 (-place).toNat
  let down := Nat.pow 10 place.toNat
  let floor := num * up / (den * down)
  let admitted := fun (n : Nat) =>
    x.admits (4 * n * down * den) (up * Nat.pow 2 x.exponent.toNat)
  let twice := 2 * (num * up)
  let middle := (2 * floor + 1) * (den * down)
  let nearer := if twice < middle then floor
    else if middle < twice then floor + 1
    else if floor % 2 = 0 then floor else floor + 1
  let other := if nearer = floor then floor + 1 else floor
  if admitted nearer then some ⟨nearer, place⟩
  else if admitted other then some ⟨other, place⟩
  else none

/-- A decimal without zeros at the end of its digits. -/
def Scientific.strip : Nat → Scientific → Scientific
  | 0, s => s
  | fuel + 1, s =>
    if s.digits ≠ 0 ∧ s.digits % 10 = 0 then strip fuel ⟨s.digits / 10, s.exponent + 1⟩ else s

/-- The shortest decimal that reads back as a double. -/
def Binary.shortest (x : Binary) : Scientific :=
  if x.mantissa = 0 then ⟨0, 0⟩
  else ((List.range 17).findSome? fun k => (x.withDigits (k + 1)).map (Scientific.strip 20)).getD
    ⟨0, 0⟩

end CatalogGraph.Decimal
