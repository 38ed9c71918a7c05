import CatalogGraph.Text.Blank

/-!
Tables in delimited text: records on lines, fields between delimiters, and quotes around fields
that hold delimiters, line ends or quotes. Every row has as many values as the header.
-/
namespace CatalogGraph

/-- A row of values under the names of their columns. -/
structure Row where
  header : List String
  values : List String
deriving DecidableEq, Repr

namespace Row

/-- The value in the first column of a name. -/
def get? (row : Row) (column : String) : Option String :=
  (row.header.idxOf? column).bind fun i => row.values[i]?

end Row

namespace Table

/-- Why a text is no table. -/
inductive Fault where
  | tooManyFields (row fields columns : Nat)
  | unterminatedQuote
deriving DecidableEq, Repr

def Fault.message : Fault → String
  | .tooManyFields row fields columns =>
    "row " ++ toString row ++ " has " ++ toString fields ++ " fields, header has " ++
      toString columns
  | .unterminatedQuote => "unterminated quoted field"

/-- What has been read: the records, the record and the field under way, and whether quotes are
open. The field is in reverse order, and so are the lists. -/
structure Scan where
  records : List (List String) := []
  record : List String := []
  field : List Char := []

namespace Scan

def endField (s : Scan) : Scan :=
  { s with record := String.ofList s.field.reverse :: s.record, field := [] }

/-- Ends the record under way; one that is a single blank field is dropped. -/
def endRecord (s : Scan) : Scan :=
  let keep := match s.record with
    | [only] => !Text.isBlankText only
    | _ => true
  { records := if keep then s.record.reverse :: s.records else s.records }

def put (s : Scan) (c : Char) : Scan := { s with field := c :: s.field }

end Scan

/-- The records of a text; `quoted` tells whether quotes are open. -/
def scan (delimiter : Char) : Bool → Scan → List Char → Except Fault (List (List String))
  | true, _, [] => .error .unterminatedQuote
  | false, s, [] =>
    if s.field.isEmpty && s.record.isEmpty then .ok s.records.reverse
    else .ok s.endField.endRecord.records.reverse
  | true, s, '"' :: '"' :: rest => scan delimiter true (s.put '"') rest
  | true, s, c :: rest =>
    if c = '"' then scan delimiter false s rest else scan delimiter true (s.put c) rest
  | false, s, c :: rest =>
    if c = '"' ∧ s.field.isEmpty then scan delimiter true s rest
    else if c = '\r' then scan delimiter false s rest
    else if c = '\n' then scan delimiter false s.endField.endRecord rest
    else if c = delimiter then scan delimiter false s.endField rest
    else scan delimiter false (s.put c) rest

/-- The rows of records under a header; missing values are empty. -/
def rowsOf (header : List String) : Nat → List (List String) → Except Fault (List Row)
  | _, [] => .ok []
  | n, values :: rest =>
    if header.length < values.length then
      .error (.tooManyFields n values.length header.length)
    else
      let padded := values ++ List.replicate (header.length - values.length) ""
      (rowsOf header (n + 1) rest).map (⟨header, padded⟩ :: ·)

/-- Reads a table, whose first record is the header. -/
def parse (delimiter : Char) (text : String) : Except Fault (List Row) := do
  match ← scan delimiter false {} text.toList with
  | [] => return []
  | header :: records => rowsOf (header.map Text.trim) 1 records

end Table
end CatalogGraph
