import CatalogGraph.Text.Alphabetic
import CatalogGraph.Text.Numeric
import CatalogGraph.XPath.Syntax

/-!
The tokens of a path. White space separates tokens and has no other meaning.
-/
namespace CatalogGraph.XPath

/-- A sign, a literal or a name. -/
inductive Token where
  | slash
  | doubleSlash
  | dot
  | doubleDot
  | at
  | star
  | openBracket
  | closeBracket
  | openParenthesis
  | closeParenthesis
  | equals
  | differs
  | literal (text : String)
  | number (n : Nat)
  /-- A name, with its prefix and colon if it has one. -/
  | name (text : String)
deriving DecidableEq, Repr

def isNameStart (c : Char) : Bool := Text.isAlphabetic c || c = '_'

def isNameChar (c : Char) : Bool :=
  Text.isAlphabetic c || Text.isNumeric c || c = '_' || c = '-' || c = '.'

/-- Positions are words of 64 bits. -/
def positionBound : Nat := UInt64.size

/-- The number that decimal digits stand for. -/
def decimalValue (digits : List Char) : Nat :=
  digits.foldl (fun n c => n * 10 + (c.toNat - '0'.toNat)) 0

/-- A name whose first character has been found: the name and the text behind it. -/
def scanName (c : Char) (cs : List Char) : Except Fault (Token × List Char) :=
  let head := c :: cs.takeWhile isNameChar
  match cs.dropWhile isNameChar with
  | ':' :: '*' :: rest => .ok (.name (String.ofList (head ++ [':', '*'])), rest)
  | ':' :: d :: rest =>
    if isNameStart d then
      .ok (.name (String.ofList (head ++ ':' :: d :: rest.takeWhile isNameChar)),
        rest.dropWhile isNameChar)
    else .error .danglingColon
  | [':'] => .error .danglingColon
  | rest => .ok (.name (String.ofList head), rest)

/-- A string, a number or a name that begins with a character, and the text behind it. -/
def scanWord (c : Char) (cs : List Char) : Except Fault (Token × List Char) :=
  if c = '\'' || c = '"' then
    match cs.dropWhile (· ≠ c) with
    | _ :: rest => .ok (.literal (String.ofList (cs.takeWhile (· ≠ c))), rest)
    | [] => .error .unterminatedLiteral
  else if c.isDigit then
    if decimalValue (c :: cs.takeWhile Char.isDigit) < positionBound then
      .ok (.number (decimalValue (c :: cs.takeWhile Char.isDigit)), cs.dropWhile Char.isDigit)
    else .error .positionOutOfRange
  else if isNameStart c then scanName c cs
  else .error (.unexpectedCharacter c)

/-- The token that begins with a character, and the text behind it. -/
def scanToken (c : Char) (cs : List Char) : Except Fault (Token × List Char) :=
  match c, cs with
  | '/', '/' :: rest => .ok (.doubleSlash, rest)
  | '/', _ => .ok (.slash, cs)
  | '.', '.' :: rest => .ok (.doubleDot, rest)
  | '.', _ => .ok (.dot, cs)
  | '!', '=' :: rest => .ok (.differs, rest)
  | '!', _ => .error .loneBang
  | '@', _ => .ok (.at, cs)
  | '*', _ => .ok (.star, cs)
  | '[', _ => .ok (.openBracket, cs)
  | ']', _ => .ok (.closeBracket, cs)
  | '(', _ => .ok (.openParenthesis, cs)
  | ')', _ => .ok (.closeParenthesis, cs)
  | '=', _ => .ok (.equals, cs)
  | _, _ => scanWord c cs

def isSpace (c : Char) : Bool := c = ' ' || c = '\t' || c = '\n' || c = '\r'

theorem length_dropWhile_le {α : Type} (p : α → Bool) (xs : List α) :
    (xs.dropWhile p).length ≤ xs.length :=
  (List.dropWhile_sublist p).length_le

theorem length_of_scanName {c : Char} {cs rest : List Char} {t : Token}
    (found : scanName c cs = .ok (t, rest)) : rest.length ≤ cs.length := by
  have bound := length_dropWhile_le isNameChar cs
  unfold scanName at found
  simp only at found
  split at found
  next left hs =>
    cases found
    have := congrArg List.length hs
    simp only [List.length_cons] at this
    omega
  next d left _ hs =>
    have := congrArg List.length hs
    have inner := length_dropWhile_le isNameChar left
    simp only [List.length_cons] at this
    split at found
    next => cases found; omega
    next => cases found
  next => cases found
  next => cases found; exact bound

theorem length_of_scanWord {c : Char} {cs rest : List Char} {t : Token}
    (found : scanWord c cs = .ok (t, rest)) : rest.length ≤ cs.length := by
  unfold scanWord at found
  split at found
  next =>
    split at found
    next d left hs =>
      cases found
      have := length_dropWhile_le (· ≠ c) cs
      rw [hs] at this
      simp only [List.length_cons] at this
      omega
    next => cases found
  next =>
    split at found
    next =>
      split at found
      next => cases found; exact length_dropWhile_le _ _
      next => cases found
    next =>
      split at found
      next => exact length_of_scanName found
      next => cases found

theorem length_of_scanToken {c : Char} {cs rest : List Char} {t : Token}
    (found : scanToken c cs = .ok (t, rest)) : rest.length ≤ cs.length := by
  unfold scanToken at found
  split at found
  case h_14 => exact length_of_scanWord found
  all_goals cases found <;> simp

/-- The tokens of a text. -/
def tokenize (cs : List Char) : Except Fault (List Token) :=
  match cs with
  | [] => .ok []
  | c :: rest =>
    if isSpace c then tokenize rest
    else match _found : scanToken c rest with
      | .ok (t, left) => (tokenize left).map (t :: ·)
      | .error e => .error e
termination_by cs.length
decreasing_by
  · simp
  · have := length_of_scanToken _found
    simp only [List.length_cons]
    omega

end CatalogGraph.XPath
