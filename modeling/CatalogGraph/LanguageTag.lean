import CatalogGraph.Text.Pieces

/-!
Language tags: subtags between hyphens, each of a kind that its length, its characters and its
place decide.
-/
namespace CatalogGraph.LanguageTag

/-- Tags that are registered as a whole and follow no rule. -/
def registered : List String :=
  ["art-lojban", "cel-gaulish", "en-gb-oed", "i-ami", "i-bnn", "i-default", "i-enochian", "i-hak",
   "i-klingon", "i-lux", "i-mingo", "i-navajo", "i-pwn", "i-tao", "i-tay", "i-tsu", "no-bok",
   "no-nyn", "sgn-be-fr", "sgn-be-nl", "sgn-ch-de", "zh-guoyu", "zh-hakka", "zh-min",
   "zh-min-nan", "zh-xiang"]

/-- What the subtags read so far allow next. -/
inductive Place where
  | start
  | afterLanguage (extended : Nat)
  | afterExtended
  | afterScript
  | afterRegion
  | inExtension (owed : Bool)
  | inPrivateUse (owed : Bool)
deriving DecidableEq

def isAlphabetic (cs : List Char) : Bool := cs.all Char.isAlpha
def isAlphanumeric (cs : List Char) : Bool := cs.all Char.isAlphanum

/-- Whether a subtag is a variant: five letters or more, or four with a digit in front. -/
def isVariant (tag : List Char) : Bool :=
  isAlphanumeric tag &&
    match tag with
    | c :: _ => (c.isAlpha && 5 ≤ tag.length) || (c.isDigit && 4 ≤ tag.length)
    | [] => false

/-- Whether a subtag is a region: two letters or three digits. -/
def isRegion (tag : List Char) : Bool :=
  (tag.length == 2 && isAlphabetic tag) || (tag.length == 3 && tag.all Char.isDigit)

/-- The place after one more subtag in the part of a tag that names a language. -/
def stepInLanguage (place : Place) (tag : List Char) : Option Place :=
  let beforeScript := match place with
    | .afterLanguage _ => true
    | .afterExtended => true
    | _ => false
  match place with
  | .afterLanguage extended =>
    if tag.length == 3 && isAlphabetic tag then
      if extended < 3 then some (.afterLanguage (extended + 1)) else none
    else if tag.length == 4 && isAlphabetic tag then some .afterScript
    else if isRegion tag || isVariant tag then some .afterRegion
    else none
  | _ =>
    if beforeScript && tag.length == 4 && isAlphabetic tag then some .afterScript
    else if place != .afterRegion && isRegion tag then some .afterRegion
    else if isVariant tag then some .afterRegion
    else none

/-- The place after one more subtag, if it may stand there. -/
def step (place : Place) (tag : List Char) : Option Place :=
  if tag.isEmpty || 8 < tag.length then none
  else match place with
    | .start =>
      if tag.length < 2 || !isAlphabetic tag then none
      else if tag.length < 4 then some (.afterLanguage 0)
      else some .afterExtended
    | .inPrivateUse _ => if isAlphanumeric tag then some (.inPrivateUse false) else none
    | .inExtension owed =>
      if tag.length == 1 then
        if owed then none
        else if tag == ['x'] || tag == ['X'] then some (.inPrivateUse true)
        else if isAlphanumeric tag then some (.inExtension true)
        else none
      else if isAlphanumeric tag then some (.inExtension false)
      else none
    | place =>
      if tag == ['x'] || tag == ['X'] then some (.inPrivateUse true)
      else if tag.length == 1 && isAlphanumeric tag then some (.inExtension true)
      else stepInLanguage place tag

/-- Whether a text is a well-formed language tag. -/
def isValid (cs : List Char) : Bool :=
  let lower := String.ofList (cs.map Char.toLower)
  if registered.contains lower then true
  else match cs with
    | c :: '-' :: rest =>
      (c == 'x' || c == 'X') &&
        ((Text.piecesOn ['-'] rest).foldlM step (.inPrivateUse true)).isSome
    | _ =>
      match (Text.piecesOn ['-'] cs).foldlM step Place.start with
      | some (.inExtension true) => false
      | some (.inPrivateUse true) => false
      | some .start => false
      | some _ => true
      | none => false

end CatalogGraph.LanguageTag
