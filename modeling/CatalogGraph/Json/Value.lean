import CatalogGraph.Entries
import CatalogGraph.Decimal.Shortest

/-!
JSON values. A whole number of 64 bits is kept exactly, any other number as a double; the members
of an object are in ascending order of their keys.
-/
namespace CatalogGraph

/-- A number: whole within 64 bits, or a finite double by its bits. -/
inductive JsonNumber where
  | whole (n : Int)
  | double (bits : UInt64)
deriving DecidableEq, Repr, Inhabited

/-- A value, with the members of an object in ascending order of their names. -/
inductive Json where
  | null
  | bool (b : Bool)
  | number (n : JsonNumber)
  | string (s : String)
  | array (items : List Json)
  | object (members : List (String × Json))
deriving Repr, Inhabited

namespace JsonNumber

def ofFloat (x : Float) : JsonNumber := .double x.toBits

/-- The digits of a double: positional from 0.00001 up to 16 digits before the point, and else one
digit before the point and an exponent. -/
def renderDigits (s : Decimal.Scientific) : String :=
  let digits := (toString s.digits).toList
  let point : Int := digits.length + s.exponent
  if s.digits = 0 then "0.0"
  else if 0 ≤ s.exponent ∧ point ≤ 16 then
    String.ofList (digits ++ List.replicate s.exponent.toNat '0') ++ ".0"
  else if 0 < point ∧ point ≤ 16 then
    String.ofList (digits.take point.toNat ++ ['.'] ++ digits.drop point.toNat)
  else if -5 < point ∧ point ≤ 0 then
    "0." ++ String.ofList (List.replicate (-point).toNat '0' ++ digits)
  else
    let fraction := match digits.drop 1 with
      | [] => []
      | more => '.' :: more
    String.ofList (digits.take 1 ++ fraction) ++ "e" ++ toString (point - 1)

/-- The text of a number. -/
def render : JsonNumber → String
  | .whole n => toString n
  | .double bits =>
    let sign := if UInt64.size / 2 ≤ bits.toNat then "-" else ""
    sign ++ renderDigits (Decimal.Binary.ofBits bits.toNat).shortest

end JsonNumber

namespace Json

/-- An object of the given members, of which the last one for a key counts. -/
def ofMembers (members : List (String × Json)) : Json := .object (Entries.ofPairs members)

def ofNat (n : Nat) : Json := .number (.whole n)

def strings (ss : List String) : Json := .array (ss.map .string)

/-- The given value, or null if there is none. -/
def optional {α : Type} (f : α → Json) : Option α → Json
  | some a => f a
  | none => .null

/-- The member of an object under a key. -/
def member? (key : String) : Json → Option Json
  | .object members => Entries.get? key members
  | _ => none

def string? : Json → Option String
  | .string s => some s
  | _ => none

def bool? : Json → Option Bool
  | .bool b => some b
  | _ => none

def nat? : Json → Option Nat
  | .number (.whole n) => if 0 ≤ n then some n.toNat else none
  | _ => none

def isNull : Json → Bool
  | .null => true
  | _ => false

mutual

/-- A value with each of its numbers put in another way. -/
def mapNumbers (f : JsonNumber → Json) : Json → Json
  | .number n => f n
  | .array items => .array (mapNumbersItems f items)
  | .object members => .object (mapNumbersMembers f members)
  | v => v

def mapNumbersItems (f : JsonNumber → Json) : List Json → List Json
  | [] => []
  | item :: rest => mapNumbers f item :: mapNumbersItems f rest

def mapNumbersMembers (f : JsonNumber → Json) : List (String × Json) → List (String × Json)
  | [] => []
  | (key, value) :: rest => (key, mapNumbers f value) :: mapNumbersMembers f rest

end

end Json
end CatalogGraph
