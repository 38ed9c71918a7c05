import CatalogGraph.Graph.Basic
import CatalogGraph.Proofs.StatementGrammar
import Mathlib.Data.Bool.AllAny

/-!
What a graph is written as is read back as its statements: no character of a name or of a text can
end the brackets or the quotes around it, and no escape can be taken for another one.
-/
namespace CatalogGraph
namespace NTriples

section Escapes

theorem hexValue_hexDigit : ∀ n < 16, hexValue (hexDigit n) = some n := by decide

theorem hexNumber_hex4 {n : Nat} (small : n < 65536) : hexNumber (hex4 n) = some n := by
  have value (m : Nat) : hexValue (hexDigit (m % 16)) = some (m % 16) :=
    hexValue_hexDigit _ (Nat.mod_lt _ (by decide))
  simp only [hexNumber, hex4, List.foldlM_cons, List.foldlM_nil, value, Option.map_some,
    Option.bind_eq_bind, Option.bind_some, Option.pure_def, Option.some.injEq]
  omega

theorem isIriChar_iff {c : Char} :
    IsIriChar c ↔ ¬ (iriExcluded.contains c || c.toNat ≤ 0x20) = true := by
  have space : 0x20 < c.toNat → c ≠ ' ' := by
    rintro large rfl
    exact absurd large (by decide)
  simp only [IsIriChar, iriExcluded, List.contains_eq_mem, List.mem_cons, List.not_mem_nil,
    or_false, Bool.or_eq_true, decide_eq_true_eq, not_or]
  constructor
  · rintro ⟨large, others⟩
    exact ⟨by simp [space large, others], by omega⟩
  · rintro ⟨others, large⟩
    exact ⟨by omega, by simp [others]⟩

/-- What has to be escaped in a name has a number of four digits. -/
theorem toNat_lt_of_not_isIriChar {c : Char} (excluded : ¬ IsIriChar c) : c.toNat < 65536 := by
  by_contra large
  refine excluded ⟨by omega, fun mem => large ?_⟩
  have each : ∀ d ∈ ['<', '>', '"', '\x7b', '\x7d', '|', '^', '\x60', '\\'], d.toNat < 65536 :=
    List.all_iff_forall_prop.mp rfl
  exact each c mem

/-- Each character of a name is a piece of its own, whatever the name. -/
theorem iriPiece_iriChar (c : Char) : IriPiece (iriChar c) c := by
  unfold iriChar
  split
  next excluded =>
    have excluded : ¬ IsIriChar c := fun allowed => isIriChar_iff.mp allowed excluded
    exact .numeric (.short rfl (hexNumber_hex4 (toNat_lt_of_not_isIriChar excluded)))
  next allowed => exact .plain (isIriChar_iff.mpr allowed)

theorem quotedPiece_literalChar (c : Char) : QuotedPiece (literalChar c) c := by
  unfold literalChar
  split
  next => exact .named rfl
  next => exact .named rfl
  next => exact .named rfl
  next => exact .named rfl
  next => exact .named rfl
  next quote backslash feed carriage _ =>
    refine .plain ?_
    simp only [IsQuotedChar, List.mem_cons, List.not_mem_nil, or_false, not_or]
    exact ⟨quote, backslash, feed, carriage⟩

theorem pieces_flatMap {piece : List Char → Char → Prop} {write : Char → List Char}
    (each : ∀ c, piece (write c) c) (chars : List Char) :
    Pieces piece (chars.flatMap write) chars := by
  induction chars with
  | nil => exact .nil
  | cons c chars ih => exact .cons (each c) ih

theorem pieces_plain {chars : List Char} (allowed : ∀ c ∈ chars, IsIriChar c) :
    Pieces IriPiece chars chars := by
  induction chars with
  | nil => exact .nil
  | cons c chars ih =>
    exact .cons (.plain (allowed c (by simp))) (ih fun d mem => allowed d (by simp [mem]))

end Escapes

end NTriples

open NTriples

/-- A term whose label, language tag or datatype fits the format. Names and texts may be any. -/
def Term.IsWritable : Term → Prop
  | .iri _ => True
  | .blank label => IsLabel label.toList
  | .literal ⟨_, datatype, some tag⟩ =>
    datatype = Vocabulary.rdfLangString ∧ IsLanguageTag tag.toList
  | .literal ⟨_, datatype, none⟩ => ∀ c ∈ datatype.toList, IsIriChar c

/-- A statement about a node under a name, of terms that fit the format. -/
structure Triple.IsWritable (t : Triple) : Prop where
  node : t.subject.isLiteral = false
  name : t.predicate.isIri = true
  subject : t.subject.IsWritable
  object : t.object.IsWritable

theorem iriRef_escapeIri (name : String) : IriRef ("<" ++ escapeIri name ++ ">").toList name := by
  have written : IriRef _ name := .mk (pieces_flatMap iriPiece_iriChar name.toList)
  simpa [escapeIri] using written

theorem quoted_escapeLiteral (value : String) :
    Quoted ("\"" ++ escapeLiteral value ++ "\"").toList value := by
  have written : Quoted _ value := .mk (pieces_flatMap quotedPiece_literalChar value.toList)
  simpa [escapeLiteral] using written

theorem mark_suffix {l : Literal} (writable : (Term.literal l).IsWritable) :
    Mark (suffix l).toList l.datatype l.language := by
  obtain ⟨value, datatype, language⟩ := l
  cases language with
  | some tag =>
    obtain ⟨rfl, valid⟩ := writable
    have written := Mark.language isGap_nil valid
    simpa [suffix] using written
  | none =>
    by_cases plain : datatype = Vocabulary.xsdString
    · subst plain
      exact .absent
    · have ref : IriRef ('<' :: (datatype.toList ++ ['>'])) datatype := .mk (pieces_plain writable)
      have written := Mark.datatype isGap_nil isGap_nil ref
      simpa [suffix, Literal.isString, plain] using written

theorem stands_render {term : Term} (writable : term.IsWritable) :
    Stands term.render.toList term := by
  cases term with
  | iri name => exact .iri (iriRef_escapeIri name)
  | blank label =>
    have written := Stands.blank writable
    simpa [Term.render] using written
  | literal l =>
    have written := Stands.literal (quoted_escapeLiteral l.value) (mark_suffix writable)
    rw [← String.toList_append] at written
    exact written

theorem states_render {t : Triple} (writable : t.IsWritable) : States t.render.toList t := by
  obtain ⟨subject, predicate, object⟩ := t
  cases predicate with
  | blank => cases writable.name
  | literal => cases writable.name
  | iri name =>
    have single : IsGap [' '] := by simp [IsGap, isGapChar]
    have written := States.mk isGap_nil (stands_render writable.subject) writable.node single
      (iriRef_escapeIri name) single (stands_render writable.object) single isRemark_nil
    simpa [Triple.render, Term.render] using written

namespace Graph

theorem toList_render (g : Graph) :
    g.render.toList = (g.triples.map (·.render.toList)).flatMap (· ++ ['\n']) := by
  simp [render, lines, List.flatMap_map]

/-- A graph is written with one line for each statement, and a reader of the format finds these
statements, in their order, and nothing else. So different statements make different texts. -/
theorem render_read_back (g : Graph) (writable : ∀ t ∈ g.triples, t.IsWritable) :
    (∃ lines, g.render.toList.splitOnP isLineEnd = lines ++ [[]] ∧
      List.Forall₂ States lines g.triples) ∧
    (∀ triples, Document g.render.toList triples ↔ triples = g.triples) ∧
    (∀ other : Graph, (∀ t ∈ other.triples, t.IsWritable) → other.render = g.render →
      other.triples = g.triples) := by
  have written {g : Graph} (writable : ∀ t ∈ g.triples, t.IsWritable) :
      List.Forall₂ States (g.triples.map (·.render.toList)) g.triples := by
    rw [List.forall₂_map_left_iff, List.forall₂_same]
    exact fun t mem => states_render (writable t mem)
  have document {g : Graph} (writable : ∀ t ∈ g.triples, t.IsWritable) :
      Document g.render.toList g.triples := by
    rw [toList_render]
    exact document_of_states (written writable)
  refine ⟨⟨_, ?_, written writable⟩, fun triples => ⟨fun read => ?_, ?_⟩,
    fun other writable' same => ?_⟩
  · rw [toList_render, splitOnP_unlines (unbroken_of_states (written writable))]
  · exact read.unique (document writable)
  · rintro rfl
    exact document writable
  · exact (same ▸ document writable').unique (document writable)

/-- Names and texts that look as if they ended their brackets or quotes, or held escapes. -/
def forgedMarks : Graph :=
  ofTriples [⟨.iri "x\\u003E> .", .iri "p q", .string "\" .\n<a> <b> <c> .\\"⟩,
    ⟨.blank "a.b", .iri "p", .tagged "\\n" "en-GB"⟩, ⟨.iri "", .iri "p", .typed "\t#" "d#e"⟩]

theorem forgedMarks_read_back :
    forgedMarks.render =
      "<x\\u005Cu003E\\u003E\\u0020.> <p\\u0020q> \"\\\" .\\n<a> <b> <c> .\\\\\" .\n" ++
      "_:a.b <p> \"\\\\n\"@en-GB .\n<> <p> \"\\t#\"^^<d#e> .\n" ∧
    Document forgedMarks.render.toList forgedMarks.triples := by
  have writable : ∀ t ∈ forgedMarks.triples, t.IsWritable := by
    have label : IsLabel "a.b".toList := ⟨rfl, List.all_eq_true.mp rfl, by decide⟩
    have tag : IsLanguageTag "en-GB".toList :=
      ⟨['e', 'n'], [['G', 'B']], rfl, by decide, by simp, by simp⟩
    have string : ∀ c ∈ Vocabulary.xsdString.toList, IsIriChar c :=
      List.all_iff_forall_prop.mp rfl
    have datatype : ∀ c ∈ "d#e".toList, IsIriChar c :=
      List.all_iff_forall_prop.mp rfl
    intro t mem
    simp only [forgedMarks, ofTriples, List.mem_cons, List.not_mem_nil, or_false] at mem
    rcases mem with rfl | rfl | rfl
    · exact ⟨rfl, rfl, trivial, string⟩
    · exact ⟨rfl, rfl, label, rfl, tag⟩
    · exact ⟨rfl, rfl, trivial, datatype⟩
  exact ⟨by decide +kernel, ((render_read_back forgedMarks writable).2.1 _).mpr rfl⟩

end Graph
end CatalogGraph
