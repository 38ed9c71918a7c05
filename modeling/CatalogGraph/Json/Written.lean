/-!
JSON text cut into its values. A value is kept as it is written: nothing is asked of a number but
its digits and of a string but the form of its escapes, so that a value counts as one even if
nothing can hold what it says.
-/
namespace CatalogGraph.Json

/-- What reading a part gives: its value and the characters behind it. -/
abbrev Part (α : Type) := Option (α × List Char)

/-- A number by its digits: before the point, behind it, and of the exponent with whether that is
negative. -/
structure WrittenNumber where
  negative : Bool
  whole : List Char
  fraction : List Char := []
  exponent : Option (Bool × List Char) := none
deriving DecidableEq, Repr, Inhabited

/-- A value as it is written; a string is what stands between its quotes. -/
inductive Written where
  | null
  | bool (b : Bool)
  | number (n : WrittenNumber)
  | string (body : List Char)
  | array (items : List Written)
  | object (members : List (List Char × Written))
deriving Repr, Inhabited

def skip (cs : List Char) : List Char :=
  cs.dropWhile fun c => c == ' ' || c == '\t' || c == '\n' || c == '\r'

def hexValue? (c : Char) : Option Nat :=
  if c.isDigit then some (c.toNat - '0'.toNat)
  else if 'a' ≤ c && c ≤ 'f' then some (c.toNat - 'a'.toNat + 10)
  else if 'A' ≤ c && c ≤ 'F' then some (c.toNat - 'A'.toNat + 10)
  else none

/-- The character that a letter behind a backslash stands for. -/
def escapedChar? (c : Char) : Option Char :=
  match c with
  | '"' => some '"'
  | '\\' => some '\\'
  | '/' => some '/'
  | 'b' => some '\x08'
  | 'f' => some '\x0c'
  | 'n' => some '\n'
  | 'r' => some '\r'
  | 't' => some '\t'
  | _ => none

def prepend (start : List Char) : Part (List Char) → Part (List Char) :=
  Option.map fun (cs, rest) => (start ++ cs, rest)

namespace Written

/-- What stands before the closing quote of a string. -/
def stringBody : List Char → Part (List Char)
  | [] => none
  | '\\' :: 'u' :: a :: b :: c :: d :: rest =>
    if [a, b, c, d].all fun x => (hexValue? x).isSome then
      prepend ['\\', 'u', a, b, c, d] (stringBody rest)
    else none
  | '\\' :: e :: rest =>
    if (escapedChar? e).isSome then prepend ['\\', e] (stringBody rest) else none
  | c :: rest =>
    if c == '"' then some ([], rest)
    else if c == '\\' || c.toNat < 0x20 then none
    else prepend [c] (stringBody rest)

/-- A row of digits that is not empty. -/
def digitRow (cs : List Char) : Part (List Char) :=
  let row := cs.takeWhile Char.isDigit
  if row.isEmpty then none else some (row, cs.dropWhile Char.isDigit)

/-- The digits behind a point, if there is one. -/
def fraction : List Char → Part (List Char)
  | '.' :: rest => digitRow rest
  | cs => some ([], cs)

/-- An exponent, if there is one. -/
def exponent : List Char → Part (Option (Bool × List Char))
  | [] => some (none, [])
  | c :: rest =>
    if c == 'e' || c == 'E' then
      let (negative, digits) := match rest with
        | '+' :: more => (false, more)
        | '-' :: more => (true, more)
        | more => (false, more)
      (digitRow digits).map fun (row, left) => (some (negative, row), left)
    else some (none, c :: rest)

/-- A number behind its sign; a zero in front of other digits is none of it. -/
def unsignedNumber (negative : Bool) (cs : List Char) : Option (WrittenNumber × List Char) := do
  let (whole, rest) ← digitRow cs
  if whole.head? == some '0' && 1 < whole.length then none
  else
    let (fraction, rest) ← fraction rest
    let (exponent, rest) ← exponent rest
    return ({ negative, whole, fraction, exponent }, rest)

/-- A number with its sign. -/
def signedNumber : List Char → Part WrittenNumber
  | '-' :: rest => unsignedNumber true rest
  | cs => unsignedNumber false cs

/-- A word in the place of a value. -/
def word? : List Char → Part Written
  | 'n' :: 'u' :: 'l' :: 'l' :: rest => some (.null, rest)
  | 't' :: 'r' :: 'u' :: 'e' :: rest => some (.bool true, rest)
  | 'f' :: 'a' :: 'l' :: 's' :: 'e' :: rest => some (.bool false, rest)
  | _ => none

mutual

/-- A value behind blanks. -/
def value : Nat → List Char → Part Written
  | 0, _ => none
  | fuel + 1, cs =>
    match skip cs with
    | '"' :: rest => (stringBody rest).map fun (body, left) => (.string body, left)
    | '[' :: rest =>
      match skip rest with
      | ']' :: left => some (.array [], left)
      | more => (items fuel more).map fun (vs, left) => (.array vs, left)
    | '\x7b' :: rest =>
      match skip rest with
      | '\x7d' :: left => some (.object [], left)
      | more => (members fuel more).map fun (ms, left) => (.object ms, left)
    | c :: rest =>
      if c == '-' || c.isDigit then
        (signedNumber (c :: rest)).map fun (n, left) => (.number n, left)
      else word? (c :: rest)
    | [] => none

/-- The items of an array up to its bracket. -/
def items : Nat → List Char → Part (List Written)
  | 0, _ => none
  | fuel + 1, cs =>
    match value fuel cs with
    | none => none
    | some (v, rest) =>
      match skip rest with
      | ',' :: more => (items fuel more).map fun (vs, left) => (v :: vs, left)
      | ']' :: left => some ([v], left)
      | _ => none

/-- The members of an object up to its brace. -/
def members : Nat → List Char → Part (List (List Char × Written))
  | 0, _ => none
  | fuel + 1, cs =>
    match skip cs with
    | '"' :: rest =>
      match stringBody rest with
      | none => none
      | some (key, rest) =>
        match skip rest with
        | ':' :: rest =>
          match value fuel rest with
          | none => none
          | some (v, rest) =>
            match skip rest with
            | ',' :: more => (members fuel more).map fun (ms, left) => ((key, v) :: ms, left)
            | '\x7d' :: left => some ([(key, v)], left)
            | _ => none
        | _ => none
    | _ => none

end

/-- Reads a text that holds one value. -/
def parse? (text : String) : Option Written :=
  let cs := text.toList
  match value (cs.length + 1) cs with
  | some (v, rest) => if (skip rest).isEmpty then some v else none
  | none => none

end CatalogGraph.Json.Written
