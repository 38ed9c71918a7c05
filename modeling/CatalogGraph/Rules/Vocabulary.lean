/-!
The names with which rules are written.
-/
namespace CatalogGraph.Rules.Vocabulary

def rr : String := "http://www.w3.org/ns/r2rml#"
def rml : String := "http://semweb.mmlab.be/ns/rml#"
def ql : String := "http://semweb.mmlab.be/ns/ql#"
def kds : String := "http://knowledgelinks.io/ns/data-structures/"

def triplesMap : String := rr ++ "TriplesMap"
def logicalSource : String := rml ++ "logicalSource"
def source : String := rml ++ "source"
def iterator : String := rml ++ "iterator"
def referenceFormulation : String := rml ++ "referenceFormulation"
def query : String := rml ++ "query"
def reference : String := rml ++ "reference"
def qlXPath : String := ql ++ "XPath"
def qlJsonPath : String := ql ++ "JSONPath"
def qlCsv : String := ql ++ "CSV"
def qlSparql : String := ql ++ "SPARQL"
def subjectMap : String := rr ++ "subjectMap"
def subject : String := rr ++ "subject"
def classOf : String := rr ++ "class"
def predicateObjectMap : String := rr ++ "predicateObjectMap"
def predicate : String := rr ++ "predicate"
def predicateMap : String := rr ++ "predicateMap"
def objectMap : String := rr ++ "objectMap"
def object : String := rr ++ "object"
def parentTriplesMap : String := rr ++ "parentTriplesMap"
def template : String := rr ++ "template"
def constant : String := rr ++ "constant"
def column : String := rr ++ "column"
def termType : String := rr ++ "termType"
def datatype : String := rr ++ "datatype"
def language : String := rr ++ "language"
def iriType : String := rr ++ "IRI"
def blankType : String := rr ++ "BlankNode"
def literalType : String := rr ++ "Literal"
def delimiter : String := kds ++ "delimiter"
def valuePredicate : String := kds ++ "valuePredicate"
def reuseBlankNode : String := kds ++ "reuseBlankNode"
def additionalProperties : String := kds ++ "additionalPropertyUris"
def dedup : String := kds ++ "dedup"

end CatalogGraph.Rules.Vocabulary
