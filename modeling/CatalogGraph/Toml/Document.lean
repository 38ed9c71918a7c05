import CatalogGraph.Toml.Scalar

/-!
TOML documents: tables of keys and values. No key is given twice, and a table is opened by at most
one header or by dotted keys of one table.
-/
namespace CatalogGraph.Toml

/-- How a table came to be: by a header of its own, by the header of a table within it, or by
dotted keys. -/
inductive Origin where
  | header
  | implied
  | dotted
deriving DecidableEq, Repr

/-- What a key stands for while a document is read: a value, a table that may grow, or a list of
tables whose last one may grow. -/
inductive Item where
  | value (v : Value)
  | table (origin : Origin) (members : List (String × Item))
  | tables (elements : List (List (String × Item)))
deriving Inhabited

/-- The entries of a table in the order of the text. -/
abbrev Members := List (String × Item)

namespace Members

/-- Replaces what a key stands for, or adds the key at the end. -/
def put (key : String) (item : Item) : Members → Members
  | [] => [(key, item)]
  | (k, old) :: rest => if k = key then (k, item) :: rest else (k, old) :: put key item rest

/-- Changes the table at the end of a path, whose tables come to be if they are not there. A path
of dotted keys does not enter a table that has a header. -/
def within (dotted : Bool) (change : Origin → Members → Option Members) :
    List String → Origin → Members → Option Members
  | [], origin, members => change origin members
  | key :: rest, _, members =>
    match members.lookup key with
    | none => do
      let origin : Origin := if dotted then .dotted else .implied
      return put key (.table origin (← within dotted change rest origin [])) members
    | some (.value _) => none
    | some (.tables elements) => do
      let last ← within dotted change rest .header (elements.getLast?.getD [])
      return put key (.tables (elements.dropLast ++ [last])) members
    | some (.table origin inner) => do
      if dotted && origin == .header then none
      else return put key (.table origin (← within dotted change rest origin inner)) members

/-- Adds a key that is not there to a table that may take it: a dotted path ends at a table of
dotted keys. -/
def addNew (path : List String) (key : String) (v : Value) (origin : Origin)
    (members : Members) : Option Members :=
  if !path.isEmpty && origin ≠ .dotted then none
  else if (members.lookup key).isSome then none
  else some (members ++ [(key, .value v)])

/-- Gives a key, which may be dotted, a value. -/
def assign (key : List String) (v : Value) (members : Members) : Option Members := do
  let path := key.dropLast
  within true (addNew path (← key.getLast?) v) path .header members

/-- Opens a table by a header. -/
def openTable (key : String) (_ : Origin) (members : Members) : Option Members :=
  match members.lookup key with
  | none => some (members ++ [(key, .table .header [])])
  | some (.table .implied inner) => some (put key (.table .header inner) members)
  | some _ => none

/-- Opens one more table of a list of tables. -/
def openElement (key : String) (_ : Origin) (members : Members) : Option Members :=
  match members.lookup key with
  | none => some (members ++ [(key, .tables [[]])])
  | some (.tables elements) => some (put key (.tables (elements ++ [[]])) members)
  | some _ => none

end Members

mutual

/-- The value that an item ends up as. -/
def Item.toValue : Item → Value
  | .value v => v
  | .table _ members => .table (valuesOf members)
  | .tables elements => .array (tablesOf elements)

def valuesOf : List (String × Item) → List (String × Value)
  | [] => []
  | (key, item) :: rest => (key, item.toValue) :: valuesOf rest

def tablesOf : List (List (String × Item)) → List Value
  | [] => []
  | members :: rest => .table (valuesOf members) :: tablesOf rest

end

/-- How deep arrays and tables may nest within a value. -/
def nestingLimit : Nat := 79

/-- How many parts a dotted key may have. -/
def keyLimit : Nat := 79

def isBareKeyChar (c : Char) : Bool := c.isAlphanum || c == '-' || c == '_'

/-- One part of a key. -/
def keyPart (cs : List Char) : Part String :=
  match cs with
  | '"' :: rest => (basicBody rest).map fun (s, left) => (String.ofList s, left)
  | '\'' :: rest => (literalBody rest).map fun (s, left) => (String.ofList s, left)
  | _ =>
    let name := cs.takeWhile isBareKeyChar
    if name.isEmpty then none else some (String.ofList name, cs.dropWhile isBareKeyChar)

/-- The parts of a key with the white space around them, at most as many as given. -/
def keyParts : Nat → List Char → Part (List String)
  | 0, _ => none
  | left + 1, cs =>
    match keyPart (skipSpace cs) with
    | none => none
    | some (name, rest) =>
      match skipSpace rest with
      | '.' :: more => (keyParts left more).map fun (names, rest) => (name :: names, rest)
      | rest => some ([name], rest)

def key (cs : List Char) : Part (List String) := keyParts keyLimit cs

/-- The text from the end of the line on, behind a comment if there is one. -/
def skipComment : List Char → List Char
  | '#' :: rest => rest.dropWhile fun c => !isControl c
  | cs => cs

/-- The text behind the rest of a line that may hold a comment. -/
def endOfLine? (cs : List Char) : Option (List Char) :=
  match skipComment (skipSpace cs) with
  | [] => some []
  | rest => newline? rest

/-- The text behind white space, line ends and comments. -/
def skipLines : Nat → List Char → List Char
  | 0, cs => cs
  | fuel + 1, cs =>
    match newline? (skipComment (skipSpace cs)) with
    | some rest => skipLines fuel rest
    | none => skipSpace cs

/-- The table of keys and values in order. -/
def inlineTable? (pairs : List (List String × Value)) : Option Value := do
  let members ← pairs.foldlM (fun members (key, v) => Members.assign key v members) []
  return .table (valuesOf members)

mutual

/-- A value, with `depth` levels of nesting left. -/
def value : Nat → Nat → List Char → Part Value
  | 0, _, _ => none
  | fuel + 1, depth, cs =>
    match cs with
    | '[' :: rest =>
      match depth with
      | 0 => none
      | depth + 1 => (arrayItems fuel depth rest).map fun (vs, left) => (.array vs, left)
    | '\x7b' :: rest =>
      match depth with
      | 0 => none
      | depth + 1 =>
        match skipSpace rest with
        | '\x7d' :: left => some (.table [], left)
        | more =>
          match pairs fuel depth more with
          | some (kvs, left) => (inlineTable? kvs).map (·, left)
          | none => none
    | c :: _ =>
      if c == '"' || c == '\'' then
        (quotedString cs).map fun (s, left) => (.string (String.ofList s), left)
      else
        let (text, left) := word cs
        (wordValue? text).map (·, left)
    | [] => none

/-- The items of an array up to its bracket. -/
def arrayItems : Nat → Nat → List Char → Part (List Value)
  | 0, _, _ => none
  | fuel + 1, depth, cs =>
    match skipLines cs.length cs with
    | ']' :: left => some ([], left)
    | more =>
      match value fuel depth more with
      | none => none
      | some (v, rest) =>
        match skipLines rest.length rest with
        | ',' :: more => (arrayItems fuel depth more).map fun (vs, left) => (v :: vs, left)
        | ']' :: left => some ([v], left)
        | _ => none

/-- The keys and values of a table in braces up to its brace. -/
def pairs : Nat → Nat → List Char → Part (List (List String × Value))
  | 0, _, _ => none
  | fuel + 1, depth, cs =>
    match key cs with
    | some (name, '=' :: rest) =>
      match value fuel depth (skipSpace rest) with
      | none => none
      | some (v, rest) =>
        match skipSpace rest with
        | ',' :: more => (pairs fuel depth more).map fun (kvs, left) => ((name, v) :: kvs, left)
        | '\x7d' :: left => some ([(name, v)], left)
        | _ => none
    | _ => none

end

/-- What has been read: the tables and the path of the one that is open. -/
structure Reading where
  members : Members := []
  path : List String := []

/-- Opens the table of a header. -/
def Reading.enter (r : Reading) (path : List String)
    (opening : String → Origin → Members → Option Members) : Option Reading := do
  let members ← Members.within false (opening (← path.getLast?)) path.dropLast .header r.members
  return { members, path }

/-- Gives a key of the open table a value. -/
def Reading.assign (r : Reading) (key : List String) (v : Value) : Option Reading := do
  let change := fun (_ : Origin) members => Members.assign key v members
  return { r with members := ← Members.within false change r.path .header r.members }

/-- Reads a line that is not blank and the text behind it. -/
def line (fuel : Nat) (r : Reading) (cs : List Char) : Option (Reading × List Char) :=
  match cs with
  | '[' :: '[' :: rest =>
    match key rest with
    | some (path, ']' :: ']' :: left) => do
      return (← r.enter path Members.openElement, ← endOfLine? left)
    | _ => none
  | '[' :: rest =>
    match key rest with
    | some (path, ']' :: left) => do
      return (← r.enter path Members.openTable, ← endOfLine? left)
    | _ => none
  | _ =>
    match key cs with
    | some (name, '=' :: rest) => do
      let (v, left) ← value fuel nestingLimit (skipSpace rest)
      return (← r.assign name v, ← endOfLine? left)
    | _ => none

/-- Reads the lines of a document. -/
def lines : Nat → Reading → List Char → Option Reading
  | 0, _, _ => none
  | fuel + 1, r, cs =>
    match skipLines cs.length cs with
    | [] => some r
    | more =>
      if skipComment more == [] then some r
      else match line (fuel + 1) r more with
        | some (r, rest) => lines fuel r rest
        | none => none

/-- Reads a document; a mark of byte order at its start is skipped. -/
def parse? (text : String) : Option Value := do
  let cs := match text.toList with
    | '\ufeff' :: rest => rest
    | cs => cs
  return .table (valuesOf (← lines (cs.length + 1) {} cs).members)

end CatalogGraph.Toml
