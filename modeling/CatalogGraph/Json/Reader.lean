import CatalogGraph.Json.Value
import CatalogGraph.Json.Written

/-!
What written JSON says. Arrays and objects nest to a fixed depth, the last of equal keys counts,
and a number that no 64 bits hold as a whole becomes a double, if a finite one is near.
-/
namespace CatalogGraph.Json

/-! ### Strings -/

/-- The number of four digits of base 16. -/
def hex4? (digits : List Char) : Option Nat :=
  digits.foldlM (fun n c => (hexValue? c).map (n * 16 + ·)) 0

/-- The text that stands between quotes; two halves of a code of 16-bit units belong together, and
neither stands alone. -/
def decode? : List Char → Option (List Char)
  | [] => some []
  | '\\' :: 'u' :: a :: b :: c :: d :: rest =>
    match hex4? [a, b, c, d] with
    | none => none
    | some n =>
      if 0xd800 ≤ n && n ≤ 0xdbff then
        match rest with
        | '\\' :: 'u' :: e :: f :: g :: h :: more =>
          match hex4? [e, f, g, h] with
          | some low =>
            if 0xdc00 ≤ low && low ≤ 0xdfff then
              (decode? more).map
                (Char.ofNat (0x10000 + (n - 0xd800) * 1024 + (low - 0xdc00)) :: ·)
            else none
          | none => none
        | _ => none
      else if 0xdc00 ≤ n && n ≤ 0xdfff then none
      else (decode? rest).map (Char.ofNat n :: ·)
  | '\\' :: e :: rest =>
    match escapedChar? e with
    | some c => (decode? rest).map (c :: ·)
    | none => none
  | c :: rest => (decode? rest).map (c :: ·)

/-- The text of a string. -/
def text? (body : List Char) : Option String := (decode? body).map String.ofList

/-! ### Numbers -/

/-- The digits in front that a number of 64 bits holds, and how many more there are. -/
def significand (start : Nat) : List Char → Nat × List Char
  | [] => (start, [])
  | c :: rest =>
    let n := start * 10 + (c.toNat - '0'.toNat)
    if n < UInt64.size then significand n rest else (start, c :: rest)

/-- The double of a significand of 64 bits scaled by a power of ten, if it is finite; the scaling
is one division or multiplication, repeated by 308 places for far smaller numbers. -/
def scale : Nat → Float → Int → Option Float
  | 0, x, _ => some x
  | fuel + 1, x, exponent =>
    if exponent.natAbs ≤ 308 then
      let power := Float.ofScientific 1 false exponent.natAbs
      if 0 ≤ exponent then
        let y := x * power
        if y.isInf then none else some y
      else some (x / power)
    else if x == 0.0 then some x
    else if 0 ≤ exponent then none
    else scale fuel (x / Float.ofScientific 1 false 308) (exponent + 308)

/-- The largest exponent that a number may state. -/
def exponentLimit : Nat := UInt32.size / 2 - 1

/-- The number of a row of digits, as far as it is near the limit of exponents. -/
def exponentOf (row : List Char) : Nat :=
  row.foldl (fun n c => min (n * 10 + (c.toNat - '0'.toNat)) (10 * exponentLimit)) 0

/-- The double of the digits and the exponent of a number. -/
def doubleOf (negative : Bool) (digits : Nat) (shift : Int) (power : Option (Bool × Nat)) :
    Option JsonNumber :=
  let value : Option Float := match power with
    | none => scale 10 digits.toUInt64.toFloat shift
    | some (down, n) =>
      if exponentLimit < n then
        if digits ≠ 0 && !down then none else some 0.0
      else scale 10 digits.toUInt64.toFloat (if down then shift - n else shift + n)
  value.map fun x => .ofFloat (if negative then -x else x)

/-- The number that is written. -/
def WrittenNumber.value? (n : WrittenNumber) : Option JsonNumber :=
  let (whole, cut) := significand 0 n.whole
  let (digits, beyond) := significand whole n.fraction
  let shift := (cut.length : Int) - (n.fraction.length - beyond.length : Nat)
  match n.exponent with
  | some (down, row) => doubleOf n.negative digits shift (some (down, exponentOf row))
  | none =>
    if !cut.isEmpty || !n.fraction.isEmpty then doubleOf n.negative digits shift none
    else if !n.negative then some (.whole digits)
    else if 0 < digits && digits ≤ UInt64.size / 2 then some (.whole (-digits))
    else doubleOf true digits 0 none

/-! ### Values -/

/-- How deep arrays and objects may nest. -/
def nestingLimit : Nat := 127

mutual

/-- The value that is written, if every part of it is one and arrays and objects nest at most
`depth` deep. -/
def ofWritten? (depth : Nat) : Written → Option Json
  | .null => some .null
  | .bool b => some (.bool b)
  | .number n => n.value?.map .number
  | .string body => (text? body).map .string
  | .array items =>
    match depth with
    | 0 => none
    | depth + 1 => (ofItems? depth items).map .array
  | .object members =>
    match depth with
    | 0 => none
    | depth + 1 => (ofMembers? depth members).map ofMembers

def ofItems? (depth : Nat) : List Written → Option (List Json)
  | [] => some []
  | item :: rest =>
    match ofWritten? depth item with
    | none => none
    | some v => (ofItems? depth rest).map (v :: ·)

def ofMembers? (depth : Nat) : List (List Char × Written) → Option (List (String × Json))
  | [] => some []
  | (key, item) :: rest =>
    match text? key, ofWritten? depth item with
    | some k, some v => (ofMembers? depth rest).map ((k, v) :: ·)
    | _, _ => none

end

/-- Reads a text that holds one value. -/
def parse? (text : String) : Option Json := (Written.parse? text).bind (ofWritten? nestingLimit)

end CatalogGraph.Json
