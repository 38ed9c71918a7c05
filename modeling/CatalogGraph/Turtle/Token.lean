import CatalogGraph.LanguageTag
import CatalogGraph.Iri

/-!
The tokens of Turtle: names, labels, strings, numbers and language tags, each read from the front
of a list of characters and returned with what is left of it.
-/
namespace CatalogGraph.Turtle

/-- Why a text is no Turtle document. -/
inductive Fault where
  | unexpected
  | endOfText
  | unknownPrefix (name : String)
  | invalidIri (text : String)
  | invalidLanguage (tag : String)
  | nestedTooDeep
deriving DecidableEq, Repr

/-- What reading a token gives: its value and the characters behind it. -/
abbrev Token (α : Type) := Except Fault (α × List Char)

/-- Whether a character only separates tokens. -/
def isSpace (c : Char) : Bool := c == ' ' || c == '\t' || c == '\n' || c == '\r'

/-- The characters behind blanks and comments; within a comment up to the end of its line. -/
def skipFrom : Bool → List Char → List Char
  | _, [] => []
  | true, c :: rest => skipFrom (c != '\n' && c != '\r') rest
  | false, c :: rest =>
    if isSpace c then skipFrom false rest
    else if c == '#' then skipFrom true rest
    else c :: rest

/-- The characters behind blanks and comments. -/
def skip (cs : List Char) : List Char := skipFrom false cs

/-- Whether a character may begin a name. -/
def isNameBase (c : Char) : Bool :=
  let n := c.toNat
  c.isAlpha || (0xc0 ≤ n && n ≤ 0xd6) || (0xd8 ≤ n && n ≤ 0xf6) || (0xf8 ≤ n && n ≤ 0x2ff) ||
    (0x370 ≤ n && n ≤ 0x37d) || (0x37f ≤ n && n ≤ 0x1fff) || (0x200c ≤ n && n ≤ 0x200d) ||
    (0x2070 ≤ n && n ≤ 0x218f) || (0x2c00 ≤ n && n ≤ 0x2fef) || (0x3001 ≤ n && n ≤ 0xd7ff) ||
    (0xf900 ≤ n && n ≤ 0xfdcf) || (0xfdf0 ≤ n && n ≤ 0xfffd) || (0x10000 ≤ n && n ≤ 0xeffff)

/-- Whether a character may begin a label or a local name. -/
def isNameStart (c : Char) : Bool := isNameBase c || c == '_'

/-- Whether a character may stand within a name. -/
def isNameChar (c : Char) : Bool :=
  let n := c.toNat
  isNameStart c || c == '-' || c.isDigit || n == 0xb7 || (0x300 ≤ n && n ≤ 0x36f) ||
    (0x203f ≤ n && n ≤ 0x2040)

/-- Whether a character belongs to a name or at least lies beyond ASCII. -/
def isNameLike (c : Char) : Bool :=
  c.isAlphanum || c == '_' || c == '-' || 0x80 ≤ c.toNat

/-- Whether a dot is within a name: after it and further dots the name goes on. -/
def dotContinues (rest : List Char) : Bool :=
  match rest.dropWhile (· == '.') with
  | c :: _ => isNameLike c || c == ':' || c == '%' || c == '\\'
  | [] => false

def prepend (c : Char) : Token (List Char) → Token (List Char) :=
  Except.map fun (cs, rest) => (c :: cs, rest)

/-- The characters that a local name may hold behind a backslash. -/
def isEscapable (c : Char) : Bool :=
  ['_', '~', '.', '-', '!', '$', '&', '\'', '(', ')', '*', '+', ',', ';', '=', '/', '?', '#', '@',
   '%'].contains c

/-- A prefix up to its colon; each dot in it stands before a character of the name. -/
def prefixTail : List Char → Token (List Char)
  | [] => .error .endOfText
  | '.' :: rest =>
    if rest.head?.any isNameLike then prepend '.' (prefixTail rest) else .error .unexpected
  | c :: rest =>
    if c == ':' then .ok ([], rest)
    else if isNameChar c then prepend c (prefixTail rest)
    else .error .unexpected

/-- A prefix, which may be empty, with the colon behind it. -/
def prefixName : List Char → Token (List Char)
  | [] => .error .endOfText
  | c :: rest =>
    if c == ':' then .ok ([], rest)
    else if isNameBase c then prepend c (prefixTail rest)
    else .error .unexpected

/-- The part of a local name from some character on. -/
def localTail : List Char → Token (List Char)
  | [] => .ok ([], [])
  | ['\\'] => .error .endOfText
  | '\\' :: e :: rest =>
    if isEscapable e then prepend e (localTail rest) else .error .unexpected
  | '%' :: a :: b :: rest =>
    if IriReference.isHex a && IriReference.isHex b then
      prepend '%' (prepend a (prepend b (localTail rest)))
    else .error .unexpected
  | '.' :: rest =>
    if dotContinues rest then prepend '.' (localTail rest) else .ok ([], '.' :: rest)
  | c :: rest =>
    if c == '%' then .error .unexpected
    else if isNameChar c || c == ':' then prepend c (localTail rest)
    else .ok ([], c :: rest)

/-- A local name, which may be empty. -/
def localName (cs : List Char) : Token (List Char) :=
  match cs with
  | c :: _ =>
    if c == '\\' || c == '%' || c == ':' || c.isDigit || isNameStart c then localTail cs
    else .ok ([], cs)
  | [] => .ok ([], [])

/-- The part of a blank node's label from some character on; a dot belongs to it if the next
character goes on with it. -/
def labelTail : List Char → List Char × List Char
  | [] => ([], [])
  | '.' :: c :: rest =>
    if isNameLike c then
      let (cs, left) := labelTail (c :: rest)
      ('.' :: cs, left)
    else ([], '.' :: c :: rest)
  | c :: rest =>
    if isNameChar c then
      let (cs, left) := labelTail rest
      (c :: cs, left)
    else ([], c :: rest)

/-- The label of a blank node, behind its underscore. -/
def blankLabel : List Char → Token (List Char)
  | ':' :: c :: rest =>
    if isNameStart c || c.isDigit then
      let (cs, left) := labelTail rest
      .ok (c :: cs, left)
    else .error .unexpected
  | _ => .error .unexpected

def hexValue? (c : Char) : Option Nat :=
  if c.isDigit then some (c.toNat - '0'.toNat)
  else if 'a' ≤ c && c ≤ 'f' then some (c.toNat - 'a'.toNat + 10)
  else if 'A' ≤ c && c ≤ 'F' then some (c.toNat - 'A'.toNat + 10)
  else none

/-- The character whose number the digits of base 16 give. -/
def hexChar (digits : List Char) : Except Fault Char :=
  match digits.foldlM (fun n c => (hexValue? c).map (n * 16 + ·)) 0 with
  | some n => if h : n.isValidChar then .ok (Char.ofNatAux n h) else .error .unexpected
  | none => .error .unexpected

/-- The text of a name in angle brackets, behind the first of them. -/
def iriText : List Char → Token (List Char)
  | [] => .error .endOfText
  | '\\' :: 'u' :: a :: b :: c :: d :: rest =>
    (hexChar [a, b, c, d]).bind fun x => prepend x (iriText rest)
  | '\\' :: 'U' :: a :: b :: c :: d :: e :: f :: g :: h :: rest =>
    (hexChar [a, b, c, d, e, f, g, h]).bind fun x => prepend x (iriText rest)
  | c :: rest =>
    if c == '>' then .ok ([], rest)
    else if c == '\\' then .error .unexpected
    else prepend c (iriText rest)

/-- The character that a letter behind a backslash stands for. -/
def escapedChar (c : Char) : Except Fault Char :=
  match c with
  | 't' => .ok '\t'
  | 'b' => .ok '\x08'
  | 'n' => .ok '\n'
  | 'r' => .ok '\r'
  | 'f' => .ok '\x0c'
  | '"' => .ok '"'
  | '\'' => .ok '\''
  | '\\' => .ok '\\'
  | _ => .error .unexpected

/-- The text of a string behind its opening quote, which is one quote or, if `long`, three. -/
def stringBody (quote : Char) (long : Bool) : List Char → Token (List Char)
  | [] => .error .endOfText
  | '\\' :: 'u' :: a :: b :: c :: d :: rest =>
    (hexChar [a, b, c, d]).bind fun x => prepend x (stringBody quote long rest)
  | '\\' :: 'U' :: a :: b :: c :: d :: e :: f :: g :: h :: rest =>
    (hexChar [a, b, c, d, e, f, g, h]).bind fun x => prepend x (stringBody quote long rest)
  | ['\\'] => .error .endOfText
  | '\\' :: e :: rest =>
    (escapedChar e).bind fun x => prepend x (stringBody quote long rest)
  | c :: rest =>
    if c == quote then
      if long then
        match Text.afterStart? [quote, quote] rest with
        | some left => .ok ([], left)
        | none => prepend c (stringBody quote long rest)
      else .ok ([], rest)
    else if !long && (c == '\n' || c == '\r') then .error .unexpected
    else prepend c (stringBody quote long rest)

/-- A string with its quotes. -/
def quotedString : List Char → Token (List Char)
  | [] => .error .endOfText
  | quote :: rest =>
    match Text.afterStart? [quote, quote] rest with
    | some body => stringBody quote true body
    | none => stringBody quote false rest

/-- A language tag behind its at sign, in lower case. -/
def languageTag (cs : List Char) : Token String :=
  let isTagChar := fun (c : Char) => c.isAlphanum || c == '-'
  let tag := (cs.takeWhile isTagChar).map Char.toLower
  if LanguageTag.isValid tag then .ok (String.ofList tag, cs.dropWhile isTagChar)
  else .error (.invalidLanguage (String.ofList tag))

/-- The kinds of number. -/
inductive NumberKind where
  | integer
  | decimal
  | double
deriving DecidableEq, Repr

/-- An exponent from its letter on. -/
def exponent : List Char → Token (List Char)
  | e :: rest =>
    let (sign, digits) := match rest with
      | '+' :: more => (['+'], more)
      | '-' :: more => (['-'], more)
      | more => ([], more)
    let run := digits.takeWhile Char.isDigit
    if run.isEmpty then .error .unexpected
    else .ok (e :: sign ++ run, digits.dropWhile Char.isDigit)
  | [] => .error .endOfText

/-- A number behind its sign: digits, a fraction unless the dot ends the statement, and an
exponent. -/
def unsignedNumber (cs : List Char) : Token (NumberKind × List Char) :=
  let whole := cs.takeWhile Char.isDigit
  let rest := cs.dropWhile Char.isDigit
  let isExponent := fun (c : Char) => c == 'e' || c == 'E'
  let fractionFollows := match rest with
    | '.' :: c :: _ => c.isDigit || isExponent c
    | _ => false
  let fraction := if fractionFollows then (rest.drop 1).takeWhile Char.isDigit else []
  let rest := if fractionFollows then (rest.drop 1).dropWhile Char.isDigit else rest
  let mantissa := whole ++ (if fractionFollows then '.' :: fraction else [])
  if whole.isEmpty && fraction.isEmpty then .error .unexpected
  else if rest.head?.any isExponent then
    (exponent rest).map fun (power, left) => ((.double, mantissa ++ power), left)
  else if fraction.isEmpty then .ok ((.integer, mantissa), rest)
  else .ok ((.decimal, mantissa), rest)

/-- A number with its sign. -/
def number (cs : List Char) : Token (NumberKind × List Char) :=
  let signed := cs.head?.any fun c => c == '+' || c == '-'
  let sign := if signed then cs.take 1 else []
  (unsignedNumber (cs.drop sign.length)).map fun ((kind, digits), rest) =>
    ((kind, sign ++ digits), rest)

/-- Whether brackets hold nothing but blanks, behind the opening one. -/
def closesAtOnce (cs : List Char) : Option (List Char) :=
  match cs.dropWhile isSpace with
  | ']' :: rest => some rest
  | _ => none

end CatalogGraph.Turtle
