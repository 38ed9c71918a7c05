import CatalogGraph.Text.Numeral

/-!
Dates and times of TOML: a day of the calendar, a time of day, or both with the distance from
universal time at will.
-/
namespace CatalogGraph.Toml

/-- A part of a document and the characters behind it. -/
abbrev Part (α : Type) := Option (α × List Char)

/-- A day of the calendar. -/
structure Date where
  year : Nat
  month : Nat
  day : Nat
deriving DecidableEq, Repr

/-- A time of day, to the billionth of a second. -/
structure Time where
  hour : Nat
  minute : Nat
  second : Nat
  /-- The digits of the fraction of the second, without zeros at their end. -/
  fraction : List Char := []
deriving DecidableEq, Repr

/-- How far a time is from universal time. -/
inductive Offset where
  | universal
  | minutes (n : Int)
deriving DecidableEq, Repr

/-- A date, a time or both. -/
structure Moment where
  date : Option Date := none
  time : Option Time := none
  offset : Option Offset := none
deriving DecidableEq, Repr

/-! ### Reading -/

/-- A number of so many digits that is at most `high`. -/
def digits? (count high : Nat) (cs : List Char) : Part Nat :=
  let row := cs.take count
  if row.length == count && row.all Char.isDigit && Text.numberOf row ≤ high then
    some (Text.numberOf row, cs.drop count)
  else none

def char? (expected : Char) : List Char → Option (List Char)
  | c :: rest => if c == expected then some rest else none
  | [] => none

def daysIn (year month : Nat) : Nat :=
  if month = 2 then
    if year % 4 = 0 ∧ (year % 100 ≠ 0 ∨ year % 400 = 0) then 29 else 28
  else if month = 4 ∨ month = 6 ∨ month = 9 ∨ month = 11 then 30
  else 31

/-- A date at the start of a text. -/
def Date.read? (cs : List Char) : Option (Date × List Char) := do
  let (year, rest) ← digits? 4 9999 cs
  let (month, rest) ← digits? 2 12 (← char? '-' rest)
  let (day, rest) ← digits? 2 31 (← char? '-' rest)
  if 1 ≤ month ∧ 1 ≤ day ∧ day ≤ daysIn year month then some ({ year, month, day }, rest)
  else none

/-- The first nine digits of a fraction without the zeros at their end. -/
def shortFraction (row : List Char) : List Char :=
  ((row.take 9).reverse.dropWhile (· == '0')).reverse

/-- A time of day at the start of a text. -/
def Time.read? (cs : List Char) : Option (Time × List Char) := do
  let (hour, rest) ← digits? 2 23 cs
  let (minute, rest) ← digits? 2 59 (← char? ':' rest)
  let (second, rest) ← digits? 2 60 (← char? ':' rest)
  match rest with
  | '.' :: more =>
    let row := more.takeWhile Char.isDigit
    if row.isEmpty then none
    else some ({ hour, minute, second, fraction := shortFraction row },
      more.dropWhile Char.isDigit)
  | _ => some ({ hour, minute, second }, rest)

/-- A distance from universal time, which a whole text is, or nothing. -/
def Offset.read? : List Char → Option (Option Offset)
  | [] => some none
  | ['Z'] => some (some .universal)
  | ['z'] => some (some .universal)
  | sign :: rest =>
    if sign == '+' || sign == '-' then do
      let (hour, rest) ← digits? 2 23 rest
      let (minute, rest) ← digits? 2 59 (← char? ':' rest)
      let n : Int := hour * 60 + minute
      if rest.isEmpty then some (some (.minutes (if sign == '-' then -n else n))) else none
    else none

/-- Reads a text that is a date, a time or both. -/
def Moment.ofChars? (cs : List Char) : Option Moment :=
  match Date.read? cs with
  | none => do
    let (time, rest) ← Time.read? cs
    if rest.isEmpty then some { time := some time } else none
  | some (date, []) => some { date := some date }
  | some (date, c :: rest) =>
    if c == 'T' || c == 't' || c == ' ' then do
      let (time, rest) ← Time.read? rest
      return { date := some date, time := some time, offset := ← Offset.read? rest }
    else none

/-! ### Writing -/

/-- A number with at least so many digits. -/
def padded (count n : Nat) : String :=
  let digits := toString n
  String.ofList (List.replicate (count - digits.length) '0') ++ digits

def Date.render (date : Date) : String :=
  padded 4 date.year ++ "-" ++ padded 2 date.month ++ "-" ++ padded 2 date.day

def Time.render (time : Time) : String :=
  padded 2 time.hour ++ ":" ++ padded 2 time.minute ++ ":" ++ padded 2 time.second ++
    if time.fraction.isEmpty then "" else "." ++ String.ofList time.fraction

def Offset.render : Offset → String
  | .universal => "Z"
  | .minutes n =>
    (if n < 0 then "-" else "+") ++ padded 2 (n.natAbs / 60) ++ ":" ++ padded 2 (n.natAbs % 60)

/-- The text of a moment: `T` parts a date from a time, and a distance of none is positive. -/
def Moment.render (moment : Moment) : String :=
  let date := (moment.date.map Date.render).getD ""
  let time := (moment.time.map Time.render).getD ""
  let gap := if moment.date.isSome && moment.time.isSome then "T" else ""
  date ++ gap ++ time ++ (moment.offset.map Offset.render).getD ""

end CatalogGraph.Toml
