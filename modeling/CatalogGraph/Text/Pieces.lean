/-!
Texts as lists of characters: occurrences of one in another, and cuts at a separator.
-/
namespace CatalogGraph.Text

/-- Whether the first text occurs in the second. -/
def occursIn (part : List Char) : List Char → Bool
  | [] => part.isEmpty
  | c :: rest => part.isPrefixOf (c :: rest) || occursIn part rest

theorem occursIn_iff {part whole : List Char} : occursIn part whole = true ↔ part <:+: whole := by
  induction whole with
  | nil => simp [occursIn]
  | cons c rest ih =>
    simp only [occursIn, Bool.or_eq_true, List.isPrefixOf_iff_prefix, ih, List.infix_cons_iff]

/-- The list after the first one, if it starts the second. -/
def afterStart? {α : Type} [DecidableEq α] : List α → List α → Option (List α)
  | [], cs => some cs
  | _ :: _, [] => none
  | a :: start, c :: cs => if a = c then afterStart? start cs else none

theorem afterStart?_eq_some_iff {α : Type} [DecidableEq α] {start cs rest : List α} :
    afterStart? start cs = some rest ↔ cs = start ++ rest := by
  induction start generalizing cs with
  | nil => simp [afterStart?]
  | cons a start ih =>
    cases cs with
    | nil => simp [afterStart?]
    | cons c cs =>
      simp only [afterStart?, List.cons_append, List.cons.injEq]
      split
      next same => simp [ih, same]
      next differ => simp [Ne.symm differ]

/-- The pieces of a text between the occurrences of a separator, which are found from left to
right; `skip` characters belong to the occurrence before them. -/
def piecesFrom (separator : List Char) : Nat → List Char → List Char → List (List Char)
  | _, piece, [] => [piece.reverse]
  | skip + 1, piece, _ :: rest => piecesFrom separator skip piece rest
  | 0, piece, c :: rest =>
    if separator.isPrefixOf (c :: rest) then
      piece.reverse :: piecesFrom separator (separator.length - 1) [] rest
    else piecesFrom separator 0 (c :: piece) rest

/-- The pieces of a text between the occurrences of a non-empty separator. -/
def piecesOn (separator : List Char) (cs : List Char) : List (List Char) :=
  piecesFrom separator 0 [] cs

/-- A text with each occurrence of a non-empty part written anew. -/
def replaceAll (part replacement : String) (s : String) : String :=
  String.ofList
    (((piecesOn part.toList s.toList).intersperse replacement.toList).flatten)

end CatalogGraph.Text
