import CatalogGraph.Text.Pieces

/-!
Internationalised resource identifiers: their five parts, which characters each part admits, and
the identifier that a relative reference stands for under a base.
-/
namespace CatalogGraph

/-- A reference cut into its parts; one with a scheme is an identifier. -/
structure IriReference where
  scheme : Option (List Char)
  authority : Option (List Char)
  path : List Char
  query : Option (List Char)
  fragment : Option (List Char)
deriving DecidableEq, Repr

namespace IriReference

def isHex (c : Char) : Bool :=
  c.isDigit || ('a' ≤ c && c ≤ 'f') || ('A' ≤ c && c ≤ 'F')

def isSubDelimiter (c : Char) : Bool :=
  ['!', '$', '&', '\'', '(', ')', '*', '+', ',', ';', '='].contains c

/-- The characters beyond ASCII that an identifier may hold. -/
def isForeign (c : Char) : Bool :=
  let n := c.toNat
  (0xa0 ≤ n && n ≤ 0xd7ff) || (0xf900 ≤ n && n ≤ 0xfdcf) || (0xfdf0 ≤ n && n ≤ 0xffef) ||
    (0x10000 ≤ n && n ≤ 0xdffff && n % 0x10000 ≤ 0xfffd) || (0xe1000 ≤ n && n ≤ 0xefffd)

/-- The characters for private use, which only a query may hold. -/
def isPrivate (c : Char) : Bool :=
  let n := c.toNat
  (0xe000 ≤ n && n ≤ 0xf8ff) || (0xf0000 ≤ n && n ≤ 0xffffd) || (0x100000 ≤ n && n ≤ 0x10fffd)

def isUnreserved (c : Char) : Bool :=
  c.isAlphanum || ['-', '.', '_', '~'].contains c || isForeign c

def isName (c : Char) : Bool := isUnreserved c || isSubDelimiter c

/-- Whether each character is admitted or belongs to a percent sign with two digits. -/
def allAdmitted (admitted : Char → Bool) : List Char → Bool
  | '%' :: a :: b :: rest => isHex a && isHex b && allAdmitted admitted rest
  | c :: rest => admitted c && c != '%' && allAdmitted admitted rest
  | [] => true

/-- The parts of an IPv4 address: four numbers up to 255 without leading zeros. -/
def isIPv4 (cs : List Char) : Bool :=
  let parts := Text.piecesOn ['.'] cs
  parts.length == 4 && parts.all fun part =>
    !part.isEmpty && part.length ≤ 3 && part.all Char.isDigit &&
      (part.length == 1 || part.head? != some '0') && (String.ofList part).toNat?.getD 256 ≤ 255

/-- The number of 16-bit groups that a run of groups between colons stands for, if it is one. -/
def groupCount (cs : List Char) (mayEndInIPv4 : Bool) : Option Nat :=
  if cs.isEmpty then some 0 else
    let parts := Text.piecesOn [':'] cs
    let isGroup := fun (part : List Char) => !part.isEmpty && part.length ≤ 4 && part.all isHex
    if parts.all isGroup then some parts.length
    else if mayEndInIPv4 && parts.dropLast.all isGroup && isIPv4 (parts.getLastD []) then
      some (parts.length + 1)
    else none

/-- Whether the text between the brackets of a host is an IPv6 address. -/
def isIPv6 (cs : List Char) : Bool :=
  match Text.piecesOn [':', ':'] cs with
  | [whole] => groupCount whole true == some 8
  | [before, after] =>
    match groupCount before false, groupCount after true with
    | some a, some b => a + b ≤ 7
    | _, _ => false
  | _ => false

/-- Whether the text between the brackets of a host is an address of a later version. -/
def isFutureAddress : List Char → Bool
  | v :: rest =>
    let version := rest.takeWhile isHex
    (v == 'v' || v == 'V') && !version.isEmpty &&
      match rest.dropWhile isHex with
      | '.' :: address =>
        !address.isEmpty && address.all fun c =>
          c.toNat < 0x80 && (isName c || c == ':')
      | _ => false
  | [] => false

/-- Whether a text is a host, with a number behind a colon at will. -/
def isHostAddress (cs : List Char) : Bool :=
  let isNumberPart := fun (rest : List Char) =>
    match rest with
    | [] => true
    | ':' :: digits => digits.all Char.isDigit
    | _ => false
  match cs with
  | '[' :: inner =>
    let address := inner.takeWhile (· != ']')
    match inner.dropWhile (· != ']') with
    | _ :: rest => (isIPv6 address || isFutureAddress address) && isNumberPart rest
    | [] => false
  | _ => allAdmitted isName (cs.takeWhile (· != ':')) && isNumberPart (cs.dropWhile (· != ':'))

/-- Whether a text is an authority: a host, with a user before it and a number after it at will. -/
def isAuthority (cs : List Char) : Bool :=
  if cs.contains '@' then
    allAdmitted (fun c => isName c || c == ':') (cs.takeWhile (· != '@')) &&
      isHostAddress ((cs.dropWhile (· != '@')).drop 1)
  else isHostAddress cs

def isScheme : List Char → Bool
  | c :: rest => c.isAlpha && rest.all fun d => d.isAlphanum || d == '+' || d == '-' || d == '.'
  | [] => false

/-- Whether a path can be told from what stands before it: without an authority it does not begin
with two slashes, and in front of a reference its first segment holds no colon. -/
def hasDistinctPath (r : IriReference) : Bool :=
  r.authority.isSome ||
    (r.path.take 2 != ['/', '/'] &&
      (r.scheme.isSome || !(r.path.takeWhile (· != '/')).contains ':'))

/-- Whether every part holds only what it admits and stays apart from its neighbours. -/
def isValid (r : IriReference) : Bool :=
  r.hasDistinctPath && r.scheme.all isScheme && r.authority.all isAuthority &&
    allAdmitted (fun c => isName c || c == ':' || c == '@' || c == '/') r.path &&
    r.query.all (allAdmitted fun c =>
      isName c || c == ':' || c == '@' || c == '/' || c == '?' || isPrivate c) &&
    r.fragment.all (allAdmitted fun c =>
      isName c || c == ':' || c == '@' || c == '/' || c == '?')

/-- Cuts a text into the parts of a reference. -/
def ofChars (cs : List Char) : IriReference :=
  let head := cs.takeWhile fun c => !([':', '/', '?', '#'].contains c)
  let hasScheme := isScheme head && (cs.drop head.length).head? == some ':'
  let scheme := if hasScheme then some head else none
  let rest := if hasScheme then cs.drop (head.length + 1) else cs
  let beforeFragment := rest.takeWhile (· != '#')
  let fragment := (rest.dropWhile (· != '#')).tail?
  let hierarchy := beforeFragment.takeWhile (· != '?')
  let query := (beforeFragment.dropWhile (· != '?')).tail?
  match hierarchy with
  | '/' :: '/' :: body =>
    { scheme, authority := some (body.takeWhile (· != '/'))
      path := body.dropWhile (· != '/'), query, fragment }
  | _ => { scheme, authority := none, path := hierarchy, query, fragment }

/-- The text of a reference. -/
def toChars (r : IriReference) : List Char :=
  (r.scheme.map (· ++ [':'])).getD [] ++ (r.authority.map (['/', '/'] ++ ·)).getD [] ++ r.path ++
    (r.query.map ('?' :: ·)).getD [] ++ (r.fragment.map ('#' :: ·)).getD []

/-- The folder, in reverse, that holds another one, given in reverse without its last slash. The
folder that nothing holds is the root behind an authority and empty otherwise. -/
def parentFolder (rooted : Bool) (reversed : List Char) : List Char :=
  match reversed.dropWhile (· != '/') with
  | [] => if rooted then ['/'] else []
  | folder => folder

/-- The path, in reverse, when its last segment is complete: a segment of one dot stays in its
folder and one of two dots goes back. A slash follows any other unless the path ends. -/
def closeSegment (rooted isLast : Bool) : List Char → List Char
  | ['.'] => []
  | ['.', '.'] => []
  | '.' :: '/' :: before => '/' :: before
  | '.' :: '.' :: '/' :: before => parentFolder rooted before
  | reversed => if isLast then reversed else '/' :: reversed

/-- The path that goes on from another one, given in reverse; `rooted` tells whether an authority
stands before it. -/
def followPath (rooted : Bool) (reversed : List Char) : List Char → List Char
  | [] => (closeSegment rooted true reversed).reverse
  | '/' :: rest => followPath rooted (closeSegment rooted false reversed) rest
  | c :: rest => followPath rooted (c :: reversed) rest

/-- The path, in reverse, that a path without a slash in front goes on from under a base. -/
def startPath (base : IriReference) : List Char :=
  if base.authority.isSome && base.path.isEmpty then ['/']
  else base.path.reverse.dropWhile (· != '/')

/-- The reference that `r` stands for under a base. One with a scheme or an authority stands for
itself, dots and all. -/
def resolve (base r : IriReference) : IriReference :=
  if r.scheme.isSome then r
  else if r.authority.isSome then { r with scheme := base.scheme }
  else if r.path.isEmpty then
    { r with
      scheme := base.scheme, authority := base.authority, path := base.path
      query := r.query.orElse fun _ => base.query }
  else
    let start := if r.path.head? = some '/' then [] else base.startPath
    { r with
      scheme := base.scheme, authority := base.authority
      path := followPath base.authority.isSome start r.path }

end IriReference

namespace Iri

/-- Reads an identifier: a valid reference with a scheme. -/
def parse? (cs : List Char) : Option IriReference :=
  let r := IriReference.ofChars cs
  if r.scheme.isSome && r.isValid then some r else none

/-- Reads a reference, which a base completes if there is one. -/
def resolve? (base : Option IriReference) (cs : List Char) : Option IriReference :=
  match base with
  | none => parse? cs
  | some base =>
    let r := IriReference.ofChars cs
    let iri := base.resolve r
    if r.isValid && iri.hasDistinctPath then some iri else none

end Iri
end CatalogGraph
