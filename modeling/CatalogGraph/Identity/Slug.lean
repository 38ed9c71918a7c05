/-!
Slugs: the parts of minted names, made of lower-case ASCII letters, digits and single hyphens.
-/
namespace CatalogGraph.Identity

/-- The letters and digits of a text in lower case, with a hyphen wherever anything else stands
between two of them. `started` tells whether there has been one, and `pending` whether something
else has come since. -/
def slugFrom (started pending : Bool) : List Char → List Char
  | [] => []
  | c :: rest =>
    if c.isAlphanum then
      (if started && pending then ['-'] else []) ++ c.toLower :: slugFrom true false rest
    else slugFrom started true rest

/-- The slug of a text. -/
def slug (s : String) : String := String.ofList (slugFrom false false s.toList)

/-- The part of a name behind its last `#` or `/`. -/
def localName (iri : String) : String :=
  String.ofList (iri.toList.reverse.takeWhile fun c => c ≠ '#' && c ≠ '/').reverse

end CatalogGraph.Identity
