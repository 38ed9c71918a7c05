import CatalogGraph.Text.Emoji
import CatalogGraph.Text.Extending
import CatalogGraph.Text.Ignorable

/-!
The columns that a text takes where every character is as wide as one column, two or none, and
where some characters run together with those behind them: letters into ligatures, emoji into one
picture.
-/
namespace CatalogGraph.Text

/-! ### Single characters -/

/-- The ranges of the characters other than emoji that take two columns: the properties Wide and
Fullwidth. -/
def wideRanges : List (Nat × Nat) :=
  [(0x1100, 0x115f), (0x2329, 0x232a), (0x2630, 0x2637), (0x268a, 0x268f), (0x2e80, 0x2e99),
   (0x2e9b, 0x2ef3), (0x2f00, 0x2fd5), (0x2ff0, 0x303e), (0x3041, 0x3096), (0x3099, 0x30ff),
   (0x3105, 0x312f), (0x3131, 0x318e), (0x3190, 0x31e5), (0x31ef, 0x321e), (0x3220, 0x3247),
   (0x3250, 0xa48c), (0xa490, 0xa4c6), (0xa960, 0xa97c), (0xac00, 0xd7a3), (0xf900, 0xfaff),
   (0xfe10, 0xfe19), (0xfe30, 0xfe52), (0xfe54, 0xfe66), (0xfe68, 0xfe6b), (0xff01, 0xff60),
   (0xffe0, 0xffe6), (0x16fe0, 0x16fe4), (0x16ff0, 0x16ff6), (0x17000, 0x18cd5), (0x18cff, 0x18d1e),
   (0x18d80, 0x18df2), (0x1aff0, 0x1aff3), (0x1aff5, 0x1affb), (0x1affd, 0x1affe),
   (0x1b000, 0x1b122), (0x1b132, 0x1b132), (0x1b150, 0x1b152), (0x1b155, 0x1b155),
   (0x1b164, 0x1b167), (0x1b170, 0x1b2fb), (0x1d300, 0x1d356), (0x1d360, 0x1d376),
   (0x1f200, 0x1f200), (0x1f202, 0x1f202), (0x1f210, 0x1f219), (0x1f21b, 0x1f22e),
   (0x1f230, 0x1f231), (0x1f237, 0x1f237), (0x1f23b, 0x1f23b), (0x1f240, 0x1f248),
   (0x1f260, 0x1f265), (0x20000, 0x2fffd), (0x30000, 0x3fffd)]

/-- The ranges of the characters that are shown with others only: vowels and closing consonants of
Hangul syllables, and marks and letters that are put in front. -/
def dependentRanges : List (Nat × Nat) :=
  [(0x605, 0x605), (0x70f, 0x70f), (0x890, 0x891), (0x8e2, 0x8e2), (0xd4e, 0xd4e),
   (0x1160, 0x11ff), (0xa8fa, 0xa8fa), (0xd7b0, 0xd7c6), (0xd7cb, 0xd7fb), (0x111c2, 0x111c3),
   (0x113d1, 0x113d1), (0x1193f, 0x1193f), (0x11941, 0x11941), (0x11a3a, 0x11a3a),
   (0x11a84, 0x11a89), (0x11d46, 0x11d46), (0x11f02, 0x11f02)]

/-- The columns of a character by itself. -/
def columns (c : Char) : Nat :=
  if c == '\u2d7f' then 1
  else if c == '\u115f' || c == '\u17a4' then 2
  else if c == '\u17d8' then 3
  else if isExtending c || isIgnorable c || inRanges dependentRanges c then 0
  else if isPicture c || isTone c || inRanges wideRanges c then 2
  else 1

/-! ### Characters that run together -/

/-- The end of a ligature, by which the character before it may lose its own columns. -/
inductive LigatureEnd where
  /-- An Arabic alef, behind a lam. -/
  | alef
  /-- A Hebrew lamed, joined to an alef. -/
  | lamed
  /-- A Buginese ya, joined to the vowel i. -/
  | ya
  /-- The vowel i and a ya, behind the letter a. -/
  | vowelYa
  /-- A Tifinagh consonant. -/
  | consonant
  /-- A Tifinagh consonant and the sign that joins it to another one. -/
  | joinedConsonant
  /-- The second of two Lisu tones. -/
  | lowTone
  /-- An Old Turkic i, joined to the letter op. -/
  | orkhonI
  /-- A Khmer letter that may be written below another one. -/
  | khmer
deriving DecidableEq, Repr

/-- What stands behind a character, as far as the character runs together with it. -/
inductive Follower where
  /-- Something that stands by itself. -/
  | apart
  /-- A picture. -/
  | picture
  | tone
  /-- The letters of flags, `several` if more than one. -/
  | flagLetters (several : Bool)
  /-- A joiner before a picture, perhaps with the frame of a key before it. -/
  | joiner (key : Bool)
  /-- The letters of flags before a joiner and a picture: whether they are several, and odd in
  number. -/
  | joinedFlag (several odd : Bool)
  /-- The tags that name the region of a flag, from some place up to their end before a joiner and
  a picture: letters, and digits before them. -/
  | tags (letters digits : Nat)
  /-- The vowel sign e of Kirat Rai, which makes one sign with those before it. -/
  | kiratE
  /-- The vowel sign ai of Kirat Rai. -/
  | kiratAi
  /-- The end of a ligature, with a joiner before it at will. -/
  | ligature (stop : LigatureEnd) (joined : Bool)
deriving DecidableEq, Repr

/-- How a selector lets the character before it be shown. -/
inductive Style where
  | text
  | picture
deriving DecidableEq, Repr

/-- What stands behind a character, and the selector between them. -/
structure Following where
  follower : Follower := .apart
  style : Option Style := none
deriving DecidableEq, Repr

/-- The joiner, which takes no columns and lets letters or pictures run together. -/
def joinerChar : Char := '\u200d'

def isTifinaghConsonant (c : Char) : Bool :=
  (0x2d31 ≤ c.toNat && c.toNat ≤ 0x2d65) || c.toNat == 0x2d6f

/-- Whether a character is an Arabic lam. -/
def isLam (c : Char) : Bool :=
  inRanges [(0x644, 0x644), (0x6b5, 0x6b8), (0x76a, 0x76a), (0x8a6, 0x8a6), (0x8c7, 0x8c7)] c

/-- Whether a character is an Arabic alef. -/
def isAlef (c : Char) : Bool :=
  inRanges [(0x622, 0x623), (0x625, 0x625), (0x627, 0x627), (0x671, 0x673), (0x675, 0x675),
    (0x773, 0x774), (0x870, 0x882)] c

/-- Whether a character is a Khmer letter that may be written below another one. -/
def isKhmerBelow (c : Char) : Bool :=
  inRanges [(0x1780, 0x1782), (0x1784, 0x1787), (0x1789, 0x178c), (0x178e, 0x1793),
    (0x1795, 0x1798), (0x179b, 0x179d), (0x17a0, 0x17a0), (0x17a2, 0x17a2), (0x17a7, 0x17a7),
    (0x17ab, 0x17ac), (0x17af, 0x17af)] c

/-- Whether a mark between two letters leaves them what they are: it is ignorable and nothing but a
mark. -/
def isFaintMark (c : Char) : Bool :=
  inRanges [(0x34f, 0x34f), (0x17b4, 0x17b5), (0x180b, 0x180d), (0x180f, 0x180f),
    (0xfe00, 0xfe0f), (0xe0100, 0xe01ef)] c

/-- The ranges of the characters without columns that part two Arabic letters. -/
def partingRanges : List (Nat × Nat) :=
  [(0x605, 0x605), (0x890, 0x891), (0x8e2, 0x8e2), (0x9be, 0x9be), (0x9d7, 0x9d7),
   (0xb3e, 0xb3e), (0xb57, 0xb57), (0xbbe, 0xbbe), (0xbd7, 0xbd7), (0xcc0, 0xcc0),
   (0xcc2, 0xcc2), (0xcc7, 0xcc8), (0xcca, 0xccb), (0xcd5, 0xcd6), (0xd3e, 0xd3e),
   (0xd4e, 0xd4e), (0xd57, 0xd57), (0xdcf, 0xdcf), (0xddf, 0xddf), (0x1160, 0x11ff),
   (0x1715, 0x1715), (0x1734, 0x1734), (0x180e, 0x180e), (0x1b35, 0x1b35), (0x1b3b, 0x1b3b),
   (0x1b3d, 0x1b3d), (0x1b43, 0x1b44), (0x1baa, 0x1baa), (0x1bf2, 0x1bf3), (0x200c, 0x200d),
   (0x2065, 0x2069), (0x302e, 0x302f), (0x3164, 0x3164), (0xa8fa, 0xa8fa), (0xa953, 0xa953),
   (0xa9c0, 0xa9c0), (0xd7b0, 0xd7fb), (0xffa0, 0xffa0), (0xfff0, 0xfff8), (0x111c0, 0x111c3),
   (0x11235, 0x11235), (0x1133e, 0x1133e), (0x1134d, 0x1134d), (0x11357, 0x11357),
   (0x113b8, 0x113b8), (0x113c2, 0x113c9), (0x113cf, 0x113cf), (0x113d1, 0x113d1),
   (0x114b0, 0x114b0), (0x114bd, 0x114bd), (0x115af, 0x115af), (0x116b6, 0x116b6),
   (0x11930, 0x11930), (0x1193d, 0x11941), (0x11a3a, 0x11a3a), (0x11a84, 0x11a89),
   (0x11d46, 0x11d46), (0x11f02, 0x11f02), (0x11f41, 0x11f41), (0x16ff0, 0x16ff1),
   (0x1d165, 0x1d166), (0x1d16d, 0x1d172), (0xe0000, 0xe0000), (0xe0002, 0xe001f),
   (0xe0080, 0xe00ff), (0xe01f0, 0xe0fff)]

/-- What a character adds to the width and is to the one before it, if it stands before the end of
a ligature and belongs to it. What the end was counted for is taken back where the whole takes
less. -/
def LigatureEnd.take? (stop : LigatureEnd) (joined : Bool) (c : Char) : Option (Int × Follower) :=
  let passes := c == joinerChar || isFaintMark c
  if stop = .alef then
    if isLam c then some (0, .apart)
    else if columns c = 0 && !inRanges partingRanges c then some (0, .ligature .alef joined)
    else none
  else if passes then some (0, .ligature stop (joined || c == joinerChar))
  else match stop with
    | .alef => none
    | .lamed => if joined && c == '\u05d0' then some (0, .apart) else none
    | .ya => if joined && c == '\u1a17' then some (0, .ligature .vowelYa true) else none
    | .vowelYa => if c == '\u1a15' then some (0, .apart) else none
    | .consonant =>
      if c == '\u2d7f' then some (1, .ligature .joinedConsonant true)
      else if joined && isTifinaghConsonant c then some (0, .apart)
      else none
    | .joinedConsonant => if isTifinaghConsonant c then some (-1, .apart) else none
    | .lowTone => if '\ua4f8' ≤ c && c ≤ '\ua4fb' then some (0, .apart) else none
    | .orkhonI => if joined && c.toNat == 0x10c32 then some (0, .apart) else none
    | .khmer => if c == '\u17d2' then some (-1, .apart) else none

/-- What a character adds and is to the one before it, if it runs together with what follows. -/
def Follower.take? (follower : Follower) (c : Char) : Option (Int × Follower) :=
  let joins := if c == joinerChar then some (0, .joiner false) else none
  match follower with
  | .apart => none
  | .ligature stop joined => stop.take? joined c
  | .picture => joins
  | .tone => if isToned c then some (0, .picture) else joins
  | .flagLetters several =>
    if isFlagLetter c then some (1, .flagLetters true) else if several then joins else none
  | .joiner false =>
    if c == '\u20e3' then some (0, .joiner true)
    else if isFlagLetter c then some (1, .joinedFlag false true)
    else if isTone c then some (0, .tone)
    else if c.toNat == 0xe007f then some (0, .tags 0 0)
    else if isPicture c then some (0, .picture)
    else none
  | .joiner true => none
  | .joinedFlag several odd =>
    if isFlagLetter c then some (if odd then -1 else 3, .joinedFlag true !odd)
    else if several then joins
    else none
  | .tags letters digits =>
    if 0xe0061 ≤ c.toNat && c.toNat ≤ 0xe007a && digits = 0 && letters < 6 then
      some (0, .tags (letters + 1) 0)
    else if 0xe0030 ≤ c.toNat && c.toNat ≤ 0xe0039 && letters ≤ 4 && digits < 3 then
      some (0, .tags letters (digits + 1))
    else if c.toNat == 0x1f3f4 && (digits = 3 || (digits = 0 && 3 ≤ letters)) then
      some (0, .picture)
    else none
  | .kiratE =>
    if c.toNat == 0x16d63 || c.toNat == 0x16d69 then some (0, .apart)
    else if c.toNat == 0x16d67 then some (0, .kiratAi)
    else if c.toNat == 0x16d68 then some (1, .kiratE)
    else none
  | .kiratAi => if c.toNat == 0x16d63 then some (0, .apart) else none

/-- What a character by itself is to the one before it. -/
def Follower.ofChar (c : Char) : Follower :=
  if isAlef c then .ligature .alef false
  else if c == '\u05dc' then .ligature .lamed false
  else if c == '\u1a10' then .ligature .ya false
  else if isTifinaghConsonant c then .ligature .consonant false
  else if c == '\ua4fc' || c == '\ua4fd' then .ligature .lowTone true
  else if c.toNat == 0x10c03 then .ligature .orkhonI false
  else if isKhmerBelow c then .ligature .khmer true
  else if c.toNat == 0x16d67 then .kiratE
  else if c.toNat == 0x16d68 then .kiratAi
  else if isFlagLetter c then .flagLetters false
  else if isTone c then .tone
  else if isPicture c then .picture
  else .apart

/-- What follows behind a selector: it parts a character from most of what is behind it. -/
def Following.select (style : Style) (following : Following) : Following :=
  match following.follower, style with
  | .ligature stop joined, _ => { follower := .ligature stop joined, style := some style }
  | .joiner key, .picture => { follower := .joiner key, style := some style }
  | _, _ => { style := some style }

/-- What follows once a selector has found nothing to decide on. -/
def Following.unselect (following : Following) : Following :=
  match following.follower, following.style with
  | .ligature stop joined, _ => { follower := .ligature stop joined }
  | _, some _ => {}
  | _, none => following

/-- What a character adds to the width of what follows it, and what it is to the one before it. -/
def addWidth (c : Char) (following : Following) : Int × Following :=
  let joined := match following.follower with
    | .joiner _ => true
    | _ => false
  let ideograph := 0x1f200 ≤ c.toNat && c.toNat ≤ 0x1f2ff
  if following.style = some .picture && isStyled c then
    (if joined then 0 else 2, { follower := .picture })
  else if c.toNat ≤ 0xa0 then (1, {})
  else if c == '\ufe0f' then (0, following.unselect.select .picture)
  else if c == '\ufe0e' then (0, following.unselect.select .text)
  else if following.style = some .text && isStyled c && isPicture c && !ideograph then (1, {})
  else match following.unselect.follower.take? c with
    | some (more, follower) => (more, { follower })
    | none => (columns c, { follower := .ofChar c })

/-- The columns of a text. -/
def width (s : String) : Nat :=
  (s.toList.foldr (fun c (total, following) =>
    let (more, following) := addWidth c following
    (total + more, following)) ((0 : Int), ({} : Following))).1.toNat

end CatalogGraph.Text
