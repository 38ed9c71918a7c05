import CatalogGraph.Graph.Term

/-!
The N-Triples form of terms and statements: one line for each statement, in which no text can
leave its quotes or brackets by a character that ends them.
-/
namespace CatalogGraph.NTriples

/-- The characters that an IRI may not hold between angle brackets. -/
def iriExcluded : List Char := ['<', '>', '"', '\x7b', '\x7d', '|', '^', '\x60', '\\', ' ']

/-- A digit of base 16 in upper case. -/
def hexDigit (n : Nat) : Char :=
  if n < 10 then Char.ofNat ('0'.toNat + n) else Char.ofNat ('A'.toNat + (n - 10))

/-- The last four digits of a number in base 16. -/
def hex4 (n : Nat) : List Char :=
  [hexDigit (n / 4096 % 16), hexDigit (n / 256 % 16), hexDigit (n / 16 % 16), hexDigit (n % 16)]

/-- A character of an IRI as it is written between angle brackets. -/
def iriChar (c : Char) : List Char :=
  if iriExcluded.contains c || c.toNat ≤ 0x20 then '\\' :: 'u' :: hex4 c.toNat else [c]

/-- A character of a literal as it is written between quotes. -/
def literalChar (c : Char) : List Char :=
  match c with
  | '"' => ['\\', '"']
  | '\\' => ['\\', '\\']
  | '\n' => ['\\', 'n']
  | '\r' => ['\\', 'r']
  | '\t' => ['\\', 't']
  | c => [c]

/-- An IRI with the characters escaped that angle brackets do not admit. -/
def escapeIri (s : String) : String := String.ofList (s.toList.flatMap iriChar)

/-- The text of a literal with the characters escaped that quotes do not admit. -/
def escapeLiteral (s : String) : String := String.ofList (s.toList.flatMap literalChar)

/-- The mark behind the quotes: the language, or else a datatype other than string. -/
def suffix (l : Literal) : String :=
  match l.language with
  | some tag => "@" ++ tag
  | none => if l.isString then "" else "^^<" ++ l.datatype ++ ">"

end NTriples

/-- A term as a token of N-Triples. -/
def Term.render : Term → String
  | .iri name => "<" ++ NTriples.escapeIri name ++ ">"
  | .blank label => "_:" ++ label
  | .literal l => "\"" ++ NTriples.escapeLiteral l.value ++ "\"" ++ NTriples.suffix l

/-- A statement as a line of N-Triples. -/
def Triple.render (t : Triple) : String :=
  t.subject.render ++ " " ++ t.predicate.render ++ " " ++ t.object.render ++ " ."

end CatalogGraph
