import CatalogGraph.Toml.Moment

/-!
Values of TOML that hold no others: strings, numbers and truth values, beside dates and times.
-/
namespace CatalogGraph.Toml

/-- What stands behind an equals sign. -/
inductive Value where
  | string (s : String)
  | integer (n : Int)
  /-- A number with a fraction or an exponent, as it is written. -/
  | float (text : String)
  | boolean (b : Bool)
  | moment (moment : Moment)
  | array (items : List Value)
  | table (members : List (String × Value))
deriving Repr, Inhabited

/-- The characters that stand for themselves nowhere. -/
def isControl (c : Char) : Bool := (c.toNat < 0x20 && c ≠ '\t') || c.toNat == 0x7f

def isSpace (c : Char) : Bool := c == ' ' || c == '\t'

def skipSpace (cs : List Char) : List Char := cs.dropWhile isSpace

/-- The text behind the end of a line. -/
def newline? : List Char → Option (List Char)
  | '\n' :: rest => some rest
  | '\r' :: '\n' :: rest => some rest
  | _ => none

def hexDigit? (c : Char) : Option Nat :=
  if c.isDigit then some (c.toNat - '0'.toNat)
  else if 'a' ≤ c && c ≤ 'f' then some (c.toNat - 'a'.toNat + 10)
  else if 'A' ≤ c && c ≤ 'F' then some (c.toNat - 'A'.toNat + 10)
  else none

/-- The character whose number is written in base 16. -/
def hexChar? (digits : List Char) : Option Char := do
  let n ← digits.foldlM (fun n c => (hexDigit? c).map (n * 16 + ·)) 0
  if n.isValidChar then some (Char.ofNat n) else none

/-- The character that an escape of one letter stands for. -/
def escaped? (c : Char) : Option Char :=
  match c with
  | 'b' => some '\x08'
  | 't' => some '\t'
  | 'n' => some '\n'
  | 'f' => some '\x0c'
  | 'r' => some '\r'
  | '"' => some '"'
  | '\\' => some '\\'
  | _ => none

/-- Puts a character in front of the text of a part. -/
def prepend (c : Char) : Part (List Char) → Part (List Char)
  | some (s, rest) => some (c :: s, rest)
  | none => none

/-- The rest of a string behind its opening quote. -/
def basicBody : List Char → Part (List Char)
  | [] => none
  | '\\' :: 'u' :: a :: b :: c :: d :: rest =>
    (hexChar? [a, b, c, d]).bind fun x => prepend x (basicBody rest)
  | '\\' :: 'U' :: a :: b :: c :: d :: e :: f :: g :: h :: rest =>
    (hexChar? [a, b, c, d, e, f, g, h]).bind fun x => prepend x (basicBody rest)
  | '\\' :: e :: rest => (escaped? e).bind fun x => prepend x (basicBody rest)
  | c :: rest =>
    if c == '"' then some ([], rest)
    else if c == '\\' || isControl c then none
    else prepend c (basicBody rest)

/-- The rest of a string that knows no escapes. -/
def literalBody : List Char → Part (List Char)
  | [] => none
  | c :: rest =>
    if c == '\'' then some ([], rest)
    else if isControl c then none
    else prepend c (literalBody rest)

/-- The end of a string at two more of its quotes, which may follow up to two that belong to the
string; `rest` begins behind the first quote. -/
def longEnd? (quote : Char) (rest : List Char) : Part (List Char) :=
  match rest with
  | a :: b :: left =>
    if a == quote && b == quote then
      let extra := (left.take 2).takeWhile (· == quote)
      some (extra, left.drop extra.length)
    else none
  | _ => none

/-- The rest of a string of several lines. While `skipping`, white space is left out, as it is
behind a backslash at the end of a line. -/
def longBasicBody (skipping : Bool) : List Char → Part (List Char)
  | [] => none
  | '\\' :: 'u' :: a :: b :: c :: d :: rest =>
    (hexChar? [a, b, c, d]).bind fun x => prepend x (longBasicBody false rest)
  | '\\' :: 'U' :: a :: b :: c :: d :: e :: f :: g :: h :: rest =>
    (hexChar? [a, b, c, d, e, f, g, h]).bind fun x => prepend x (longBasicBody false rest)
  | '\\' :: e :: rest =>
    match escaped? e with
    | some x => prepend x (longBasicBody false rest)
    | none =>
      if (newline? (skipSpace (e :: rest))).isSome then longBasicBody true (e :: rest) else none
  | c :: rest =>
    if c == '"' then
      match longEnd? '"' rest with
      | some part => some part
      | none => prepend c (longBasicBody false rest)
    else if c == '\n' then
      if skipping then longBasicBody true rest else prepend c (longBasicBody false rest)
    else if c == '\r' then
      if rest.head? == some '\n' then longBasicBody skipping rest else none
    else if isSpace c && skipping then longBasicBody true rest
    else if c == '\\' || isControl c then none
    else prepend c (longBasicBody false rest)

/-- The rest of a string of several lines that knows no escapes. -/
def longLiteralBody : List Char → Part (List Char)
  | [] => none
  | c :: rest =>
    if c == '\'' then
      match longEnd? '\'' rest with
      | some part => some part
      | none => prepend c (longLiteralBody rest)
    else if c == '\n' then prepend c (longLiteralBody rest)
    else if c == '\r' then
      if rest.head? == some '\n' then longLiteralBody rest else none
    else if isControl c then none
    else prepend c (longLiteralBody rest)

/-- The text behind a line end directly behind the opening quotes. -/
def skipNewline (cs : List Char) : List Char := (newline? cs).getD cs

/-- A string from its opening quote on. -/
def quotedString : List Char → Part (List Char)
  | '"' :: '"' :: '"' :: rest => longBasicBody false (skipNewline rest)
  | '"' :: rest => basicBody rest
  | '\'' :: '\'' :: '\'' :: rest => longLiteralBody (skipNewline rest)
  | '\'' :: rest => literalBody rest
  | _ => none

/-- A row of digits that single underscores may part, without them. -/
def digitRow? (isDigit : Char → Bool) : List Char → Option (List Char)
  | [] => none
  | [c] => if isDigit c then some [c] else none
  | c :: '_' :: rest => if isDigit c then (digitRow? isDigit rest).map (c :: ·) else none
  | c :: rest => if isDigit c then (digitRow? isDigit rest).map (c :: ·) else none

/-- The sign of a number and what is behind it. -/
def splitSign : List Char → Bool × List Char
  | '+' :: rest => (false, rest)
  | '-' :: rest => (true, rest)
  | cs => (false, cs)

/-- A row of decimal digits without a zero in front of others. -/
def wholeRow? (cs : List Char) : Option (List Char) := do
  let digits ← digitRow? Char.isDigit cs
  if digits.head? == some '0' && 1 < digits.length then none else some digits

def baseOf? (c : Char) : Option Nat :=
  match c with
  | 'x' => some 16
  | 'o' => some 8
  | 'b' => some 2
  | _ => none

/-- The absolute value of a whole number in another base than ten. -/
def basedNumber? (base : Nat) (cs : List Char) : Option Nat := do
  let digits ← digitRow? (fun c => (hexDigit? c).any (· < base)) cs
  return digits.foldl (fun n c => n * base + (hexDigit? c).getD 0) 0

/-- A whole number of 64 bits. -/
def integer? (cs : List Char) : Option Int :=
  match cs with
  | '0' :: letter :: rest => do
    let n ← basedNumber? (← baseOf? letter) rest
    if n < UInt64.size / 2 then some n else none
  | _ => do
    let (negative, digits) := splitSign cs
    let n := Text.numberOf (← wholeRow? digits)
    if negative then (if n ≤ UInt64.size / 2 then some (-n) else none)
    else if n < UInt64.size / 2 then some n else none

/-- The digits of a number with a fraction or an exponent, without its sign: those before the
point, those behind it, and the exponent. -/
def decimal? (cs : List Char) : Option (List Char × List Char × Int) := do
  let isMark := fun (c : Char) => c == 'e' || c == 'E'
  let mantissa := cs.takeWhile fun c => !isMark c
  let whole ← wholeRow? (mantissa.takeWhile (· ≠ '.'))
  let fraction ← match mantissa.dropWhile (· ≠ '.') with
    | [] => some []
    | _ :: digits => digitRow? Char.isDigit digits
  match cs.dropWhile fun c => !isMark c with
  | [] => if mantissa.contains '.' then some (whole, fraction, 0) else none
  | _ :: exponent =>
    let (down, digits) := splitSign exponent
    let n := Text.numberOf (← digitRow? Char.isDigit digits)
    some (whole, fraction, if down then -n else n)

/-- Whether a text is a number with a fraction or an exponent; a positive one has to be within
the range of doubles. -/
def isFloat (cs : List Char) : Bool :=
  let (negative, digits) := splitSign cs
  if digits == "inf".toList || digits == "nan".toList then true
  else match decimal? digits with
    | none => false
    | some (whole, fraction, exponent) =>
      let n := Text.numberOf (whole ++ fraction)
      let shift := exponent - fraction.length
      let limited := max (-20000) (min 20000 shift)
      negative || !(Float.ofScientific n (limited < 0) limited.natAbs).isInf

/-- Whether a character may stand in a word: a number, a truth value, a date or a time. -/
def isWordChar (c : Char) : Bool :=
  c.isAlphanum || c == '+' || c == '-' || c == '_' || c == '.' || c == ':'

/-- Whether a time of day may begin behind one blank. -/
def timeFollows : List Char → Bool
  | ' ' :: a :: b :: ':' :: _ => a.isDigit && b.isDigit
  | _ => false

/-- The word at the start of a text; a blank may part a date from a time. -/
def word (cs : List Char) : List Char × List Char :=
  let first := cs.takeWhile isWordChar
  let rest := cs.dropWhile isWordChar
  if (Date.read? first).any (·.2.isEmpty) && timeFollows rest then
    let more := rest.drop 1
    (first ++ ' ' :: more.takeWhile isWordChar, more.dropWhile isWordChar)
  else (first, rest)

/-- The value of a word. -/
def wordValue? (cs : List Char) : Option Value :=
  if cs == "true".toList then some (.boolean true)
  else if cs == "false".toList then some (.boolean false)
  else match Moment.ofChars? cs with
    | some moment => some (.moment moment)
    | none =>
      if isFloat cs then some (.float (String.ofList cs)) else (integer? cs).map .integer

end CatalogGraph.Toml
