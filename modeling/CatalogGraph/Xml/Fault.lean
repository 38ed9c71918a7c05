/-!
Why a text is no XML document.
-/
namespace CatalogGraph.Xml

/-- The cause for which a document is refused. -/
inductive Fault where
  /-- Markup that is not closed, not known or out of balance. -/
  | markup
  /-- A reference in text that names no character. -/
  | text
  /-- An attribute without quotes or value, stated twice, or with a bad reference in its value. -/
  | attribute
  /-- Elements still open at the end. -/
  | unclosedElement
  /-- No element at all. -/
  | noRoot
deriving DecidableEq, Repr

def Fault.message : Fault → String
  | .markup => "XML error"
  | .text => "XML text"
  | .attribute => "XML attribute"
  | .unclosedElement => "unexpected end of XML document"
  | .noRoot => "XML document has no root element"

end CatalogGraph.Xml
