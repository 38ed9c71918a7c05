import CatalogGraph.Identity.Resolve

/-!
The JSON form of the settings of a pass and of its report.
-/
namespace CatalogGraph.Identity

def MatchPolicy.toJson : MatchPolicy → Json
  | .contains => .ofMembers [("kind", .string "contains")]
  | .similar percent => .ofMembers
      [("kind", .string "contains_with_similarity"), ("min_ratio", .ofNat percent)]

def Settings.toJson (s : Settings) : Json := .ofMembers
  [("base_iri", .string s.baseIri), ("label_predicates", .strings s.labelPredicates),
   ("transient_prefixes", .strings s.transientStarts), ("policy", s.policy.toJson)]

def Resolution.name : Resolution → String
  | .matched => "matched"
  | .minted => "minted"

def Assertion.toJson (a : Assertion) : Json :=
  .strings [a.transient.render, a.canonical.render, a.label, a.resolution.name]

def Report.toJson (r : Report) : Json := .ofMembers
  [("examined", .ofNat r.examined), ("matched", .ofNat r.matched), ("minted", .ofNat r.minted),
   ("skipped", .ofNat r.skipped), ("failed", .strings (r.failed.map Term.render)),
   ("assertions", .array (r.assertions.map Assertion.toJson))]

end CatalogGraph.Identity
