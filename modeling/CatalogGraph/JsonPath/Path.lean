import CatalogGraph.Json.Value
import CatalogGraph.Text.Blank
import CatalogGraph.Text.Pieces

/-!
Paths into JSON values: segments that are followed one after another. Each place that a path
without descendants reaches is reached once, and places come in the order of the document.
-/
namespace CatalogGraph.JsonPath

/-- One part of a path. -/
inductive Segment where
  /-- The member of an object, also of the objects in an array. -/
  | key (name : String)
  /-- The item of an array, counted from the end if negative. -/
  | index (n : Int)
  /-- Every member or item. -/
  | wildcard
  /-- The members of that name at any depth. -/
  | descendant (name : String)
deriving DecidableEq, Repr

/-- The parts of a path from the document on. -/
abbrev Path := List Segment

/-- Why a text is no path. -/
inductive Fault where
  | expectedKey
  | expectedKeyAfterDot
  | expectedKeyAfterDots
  | unterminatedBracket
  | badIndex (text : String)
  | unexpectedInput (rest : String)
deriving DecidableEq, Repr

def Fault.message : Fault → String
  | .expectedKey => "expected a key"
  | .expectedKeyAfterDot => "expected a key after '.'"
  | .expectedKeyAfterDots => "expected a key after '..'"
  | .unterminatedBracket => "unterminated '['"
  | .badIndex text => "bad index '" ++ text ++ "'"
  | .unexpectedInput rest => "unexpected input at '" ++ rest ++ "'"

/-- Whether a character ends a key that is written without quotes. -/
def endsKey (c : Char) : Bool := c = '.' || c = '['

/-- The segment of a key that is written without quotes. -/
def keySegment (key : List Char) : Segment :=
  if key = ['*'] then .wildcard else .key (String.ofList key)

/-- The text between a quote at the start and the same quote behind it at the end. -/
def unquote? (quote : Char) : List Char → Option (List Char)
  | c :: rest =>
    if c = quote ∧ rest.getLast? = some quote then some rest.dropLast else none
  | [] => none

/-- The digits of a whole number. -/
def natural? (digits : List Char) : Option Nat :=
  if digits.isEmpty || !digits.all Char.isDigit then none
  else some (digits.foldl (fun n c => n * 10 + (c.toNat - '0'.toNat)) 0)

/-- A whole number of 64 bits with its sign. -/
def integer? (cs : List Char) : Option Int :=
  let value := match cs with
    | '-' :: digits => (natural? digits).map fun n => -(n : Int)
    | '+' :: digits => (natural? digits).map fun n => (n : Int)
    | digits => (natural? digits).map fun n => (n : Int)
  let bound : Nat := UInt64.size / 2
  value.filter fun n => decide (-bound ≤ n ∧ n < bound)

/-- The segment that brackets hold. -/
def bracketSegment (content : List Char) : Except Fault Segment :=
  let inner := Text.trimChars content
  if inner = ['*'] then .ok .wildcard
  else match (unquote? '\'' inner).orElse fun _ => unquote? '"' inner with
    | some key => .ok (.key (String.ofList key))
    | none =>
      match integer? inner with
      | some n => .ok (.index n)
      | none => .error (.badIndex (String.ofList inner))

/-- The next segment of a text and the text behind it. -/
def nextSegment (c : Char) (cs : List Char) : Except Fault (Segment × List Char) :=
  let key := fun (rest : List Char) => rest.takeWhile (! endsKey ·)
  let behind := fun (rest : List Char) => rest.dropWhile (! endsKey ·)
  if c = '.' then
    match cs with
    | '.' :: rest =>
      if (key rest).isEmpty then .error .expectedKeyAfterDots
      else .ok (.descendant (String.ofList (key rest)), behind rest)
    | rest =>
      if (key rest).isEmpty then .error .expectedKeyAfterDot
      else .ok (keySegment (key rest), behind rest)
  else if c = '[' then
    match cs.dropWhile (· ≠ ']') with
    | _ :: rest => (bracketSegment (cs.takeWhile (· ≠ ']'))).map (·, rest)
    | [] => .error .unterminatedBracket
  else .error (.unexpectedInput (String.ofList (c :: cs)))

theorem length_of_nextSegment {c : Char} {cs rest : List Char} {s : Segment}
    (found : nextSegment c cs = .ok (s, rest)) : rest.length ≤ cs.length := by
  have shorter : ∀ (p : Char → Bool) (xs : List Char), (xs.dropWhile p).length ≤ xs.length :=
    fun p xs => (List.dropWhile_sublist p).length_le
  unfold nextSegment at found
  simp only at found
  split at found
  next =>
    split at found
    next =>
      split at found
      next => cases found
      next => cases found; exact Nat.le_succ_of_le (shorter _ _)
    next =>
      split at found
      next => cases found
      next => cases found; exact shorter _ _
  next =>
    split at found
    next =>
      split at found
      next d more hs =>
        have bound := shorter (· ≠ ']') cs
        rw [hs] at bound
        simp only [List.length_cons] at bound
        cases hb : bracketSegment (cs.takeWhile (· ≠ ']')) with
        | error e => rw [hb] at found; cases found
        | ok segment =>
          rw [hb] at found
          cases found
          omega
      next => cases found
    next => cases found

/-- The segments of a text. -/
def segmentsOf (cs : List Char) : Except Fault Path :=
  match cs with
  | [] => .ok []
  | c :: rest =>
    match _found : nextSegment c rest with
    | .ok (segment, left) => (segmentsOf left).map (segment :: ·)
    | .error e => .error e
termination_by cs.length
decreasing_by
  have := length_of_nextSegment _found
  simp only [List.length_cons]
  omega

/-- The text without the mark of the value that a path starts from. -/
def dropRoot : List Char → List Char
  | '$' :: rest => rest
  | '@' :: rest => rest
  | cs => cs

/-- Compiles the text of a path; the first key may stand without a dot. -/
def compile (text : String) : Except Fault Path :=
  match dropRoot (Text.trimChars text.toList) with
  | [] => .ok []
  | c :: rest =>
    if c = '.' || c = '[' then segmentsOf (c :: rest)
    else
      (segmentsOf (rest.dropWhile (! endsKey ·))).map
        (keySegment (c :: rest.takeWhile (! endsKey ·)) :: ·)

mutual

/-- The members of a name in an object or in the objects of an array. -/
def membersNamed (name : String) : Json → List Json
  | .object members => (Entries.get? name members).toList
  | .array items => membersNamedIn name items
  | _ => []

def membersNamedIn (name : String) : List Json → List Json
  | [] => []
  | item :: rest => membersNamed name item ++ membersNamedIn name rest

end

/-- The members of an object that a name or a star stands for. -/
def ownMembers (name : String) (members : List (String × Json)) : List Json :=
  if name = "*" then members.map (·.2) else (Entries.get? name members).toList

mutual

/-- The members of a name at any depth, those of an object before those nested in it. -/
def descendantsNamed (name : String) : Json → List Json
  | .object members => ownMembers name members ++ descendantsInMembers name members
  | .array items => descendantsInItems name items
  | _ => []

def descendantsInItems (name : String) : List Json → List Json
  | [] => []
  | item :: rest => descendantsNamed name item ++ descendantsInItems name rest

def descendantsInMembers (name : String) : List (String × Json) → List Json
  | [] => []
  | (_, item) :: rest => descendantsNamed name item ++ descendantsInMembers name rest

end

/-- The item at an index, which counts from the end if it is negative. -/
def itemAt (n : Int) (items : List Json) : List Json :=
  let place := if n < 0 then items.length + n else n
  if 0 ≤ place then (items[place.toNat]?).toList else []

/-- The values that a segment reaches from a value. -/
def Segment.apply : Segment → Json → List Json
  | .key name, v => membersNamed name v
  | .index n, .array items => itemAt n items
  | .index _, _ => []
  | .wildcard, .object members => members.map (·.2)
  | .wildcard, .array items => items
  | .wildcard, _ => []
  | .descendant name, v => descendantsNamed name v

/-- The values that a path reaches from a value. -/
def Path.select : Path → Json → List Json
  | [], v => [v]
  | segment :: rest, v => (segment.apply v).flatMap (Path.select rest)

mutual

/-- The texts of a value: of a string, truth value or number, and of the items of arrays. -/
def scalars : Json → List String
  | .null => []
  | .object _ => []
  | .string s => [s]
  | .bool b => [if b then "true" else "false"]
  | .number n => [n.render]
  | .array items => scalarsIn items

def scalarsIn : List Json → List String
  | [] => []
  | item :: rest => scalars item ++ scalarsIn rest

end

/-- The texts of the values that a path reaches. -/
def Path.strings (path : Path) (v : Json) : List String := (path.select v).flatMap scalars

end CatalogGraph.JsonPath
