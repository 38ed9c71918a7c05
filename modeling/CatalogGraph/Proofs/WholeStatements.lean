import CatalogGraph.Proofs.LiteralOrigins
import CatalogGraph.Proofs.WrittenStatements

/-!
Whole statements: a graph is written and sent as its statements and nothing else exactly if every
label, language tag and datatype fits the format. Of what data can bring into a graph, only the
labels of blank nodes that a store gives may fail to fit.
-/
namespace CatalogGraph
namespace NTriples

section Reading

theorem NumericEscape.six_le_length {text : List Char} {c : Char}
    (escape : NumericEscape text c) : 6 ≤ text.length := by
  cases escape with
  | short four => simp [four]
  | long eight => simp [eight]

/-- Escaped characters make a name longer. -/
theorem Pieces.plain_or_longer {inner chars : List Char} (pieces : Pieces IriPiece inner chars) :
    chars.length ≤ inner.length ∧
      ((∀ c ∈ chars, IsIriChar c) ∨ chars.length + 5 ≤ inner.length) := by
  induction pieces with
  | nil => simp
  | @cons text more c others first rest ih =>
    obtain ⟨shorter, others⟩ := ih
    simp only [List.length_cons, List.length_append, List.forall_mem_cons]
    cases first with
    | plain allowed =>
      rw [List.length_singleton]
      exact ⟨by omega, others.imp (fun all => ⟨allowed, all⟩) fun longer => by omega⟩
    | numeric escape =>
      have six := escape.six_le_length
      exact ⟨by omega, .inr (by omega)⟩

/-- A datatype that is read as it is written has no character that would have to be escaped. -/
theorem isIriChar_of_mark {value datatype : String} {mark last remark : List Char}
    (marked : Mark mark datatype none)
    (same : mark ++ (last ++ '.' :: remark) = (suffix ⟨value, datatype, none⟩).toList ++ [' ', '.']) :
    ∀ c ∈ datatype.toList, IsIriChar c := by
  by_cases plain : datatype = Vocabulary.xsdString
  · subst plain
    exact List.all_iff_forall_prop.mp rfl
  · have written : (suffix ⟨value, datatype, none⟩).toList =
        '^' :: '^' :: '<' :: (datatype.toList ++ ['>']) := by
      simp [suffix, Literal.isString, plain]
    rw [written] at same
    cases marked with
    | absent => exact absurd rfl plain
    | datatype gap between ref =>
      simp only [List.append_assoc, List.cons_append] at same
      have marks := skip_gap (b := []) gap isGap_nil (begins_cons _ rfl) (begins_cons _ rfl) same
      obtain ⟨-, marks⟩ := List.cons.inj marks
      obtain ⟨-, marks⟩ := List.cons.inj marks
      have names := skip_gap (b := []) between isGap_nil (ref.begins_append _) (begins_cons _ rfl)
        marks
      cases ref with
      | mk pieces =>
        have lengths := congrArg List.length names
        simp only [List.length_append, List.length_cons, List.length_nil] at lengths
        exact pieces.plain_or_longer.2.resolve_right (by omega)

end Reading
end NTriples

open NTriples

theorem quoted_begins_append {text : List Char} {value : String} (quoted : Quoted text value)
    (rest : List Char) : Begins (text ++ rest) := by
  obtain ⟨inner, rfl⟩ := quoted.begins
  exact begins_cons _ rfl

/-- Behind the subject, the predicate and the quotes only the mark is left to be compared. -/
theorem mark_of_written {subject : Term} (fits : subject.IsWritable)
    {predicate : String} {l : Literal} {lead s between p behind quotes mark tail : List Char}
    (leads : IsGap lead) (subjectText : Stands s subject) (gap : IsGap between)
    (predicateText : IriRef p predicate) (gap' : IsGap behind) (quoted : Quoted quotes l.value)
    (same : (Triple.mk subject (.iri predicate) (.literal l)).render.toList =
      lead ++ (s ++ (between ++ (p ++ (behind ++ ((quotes ++ mark) ++ tail)))))) :
    mark ++ tail = (suffix l).toList ++ [' ', '.'] := by
  have single : IsGap [' '] := by simp [IsGap, isGapChar]
  have written : (Triple.mk subject (.iri predicate) (.literal l)).render.toList =
      subject.render.toList ++ ([' '] ++ (("<" ++ escapeIri predicate ++ ">").toList ++
        ([' '] ++ (("\"" ++ escapeLiteral l.value ++ "\"").toList ++
          ((suffix l).toList ++ [' ', '.']))))) := by
    simp [Triple.render, Term.render]
  rw [written, List.append_assoc quotes] at same
  have subjects := skip_gap (a := []) isGap_nil leads ((stands_render fits).begins_append _)
    (subjectText.begins_append _) same
  obtain ⟨-, rest⟩ := readsOnce_stands (stands_render fits) subjectText subjects
    ((iriRef_escapeIri predicate).behind single _) (predicateText.behind gap _)
  have predicates := skip_gap single gap ((iriRef_escapeIri predicate).begins_append _)
    (predicateText.begins_append _) rest
  obtain ⟨-, rest⟩ := readsOnce_iriRef (iriRef_escapeIri predicate) predicateText predicates
    trivial trivial
  have objects := skip_gap single gap' (quoted_begins_append (quoted_escapeLiteral l.value) _)
    (quoted_begins_append quoted _) rest
  exact (readsOnce_quoted (quoted_escapeLiteral l.value) quoted objects trivial trivial).2.symm

theorem isWritable_of_stands {text : List Char} {node : Term} (stands : Stands text node)
    (other : node.isLiteral = false) : node.IsWritable := by
  cases stands with
  | iri => trivial
  | blank valid => exact valid
  | literal => cases other

/-- What is read as the statement that it is written for fits the format. -/
theorem Triple.isWritable_of_states {t : Triple} (states : States t.render.toList t) :
    t.IsWritable := by
  generalize text : t.render.toList = line at states
  cases states with
  | mk leads subjectText node gap predicateText gap' objectText lasts remarks =>
    have fits := isWritable_of_stands subjectText node
    refine ⟨node, rfl, fits, ?_⟩
    cases objectText with
    | iri => trivial
    | blank valid => exact valid
    | @literal quotes mark value datatype language quoted marked =>
      cases language with
      | some tag =>
        cases marked with
        | language _ valid => exact ⟨rfl, valid⟩
      | none =>
        exact isIriChar_of_mark marked
          (mark_of_written fits leads subjectText gap predicateText gap' quoted text)

theorem flatten_chunksOf {α : Type} (size : Nat) (xs : List α) :
    (chunksOf size xs).flatten = xs := by
  induction xs using chunksOf.induct size with
  | case1 => simp [chunksOf]
  | case2 xs stop filled =>
    rw [chunksOf, dif_pos stop, if_neg filled, List.flatten_singleton]
  | case3 xs stop ih =>
    rw [chunksOf, dif_neg stop, List.flatten_cons, ih, List.take_append_drop]

theorem mem_of_mem_chunksOf {α : Type} {size : Nat} {xs chunk : List α} {x : α}
    (within : chunk ∈ chunksOf size xs) (mem : x ∈ chunk) : x ∈ xs := by
  rw [← flatten_chunksOf size xs]
  exact List.mem_flatten.mpr ⟨chunk, within, mem⟩

/-- The label of a node without a colon, before which a request would end it. -/
def Term.IsUncut : Term → Prop
  | .blank label => ':' ∉ label.toList
  | _ => True

/-- A statement that fits both the lines of the format and requests. -/
structure Triple.Fits (t : Triple) : Prop where
  writable : t.IsWritable
  subject : t.subject.IsUncut
  object : t.object.IsUncut

/-- A request inserts the statements that the lines between its braces make. -/
def Inserts (request : String) (triples : List Triple) : Prop :=
  ∃ body, request.toList = "INSERT DATA \x7b\n".toList ++ (body ++ ['\x7d']) ∧
    Document body triples ∧ ∀ t ∈ triples, t.subject.IsUncut ∧ t.object.IsUncut

section Requests

theorem Inserts.unique {request : String} {triples triples' : List Triple}
    (inserts : Inserts request triples) (inserts' : Inserts request triples') :
    triples = triples' := by
  obtain ⟨body, same, document, -⟩ := inserts
  obtain ⟨body', same', document', -⟩ := inserts'
  rw [same] at same'
  obtain rfl := List.append_cancel_right (List.append_cancel_left same')
  exact document.unique document'

theorem States.indented {gap line : List Char} {t : Triple} (blank : IsGap gap)
    (states : States line t) : States (gap ++ line) t := by
  cases states with
  | mk leads subjectText node between predicateText behind objectText lasts remarks =>
    rw [← List.append_assoc]
    exact .mk (List.forall_mem_append.mpr ⟨blank, leads⟩) subjectText node between predicateText
      behind objectText lasts remarks

theorem toList_insertRequest (triples : List Triple) : (insertRequest triples).toList =
    "INSERT DATA \x7b\n".toList ++
      ((triples.map ("  ".toList ++ ·.render.toList)).flatMap (· ++ ['\n']) ++ ['\x7d']) := by
  unfold insertRequest
  simp [List.flatMap_map]

/-- Statements that fit are inserted as they are. -/
theorem inserts_insertRequest {triples : List Triple} (fit : ∀ t ∈ triples, t.Fits) :
    Inserts (insertRequest triples) triples := by
  refine ⟨_, toList_insertRequest triples, document_of_states ?_,
    fun t mem => ⟨(fit t mem).subject, (fit t mem).object⟩⟩
  rw [List.forall₂_map_left_iff, List.forall₂_same]
  exact fun t mem => States.indented (by simp [IsGap, isGapChar]) (states_render (fit t mem).writable)

/-- A list of requests is read in one way only. -/
theorem requests_unique {requests : List String} {parts parts' : List (List Triple)}
    (insert : List.Forall₂ Inserts requests parts)
    (insert' : List.Forall₂ Inserts requests parts') : parts = parts' := by
  induction insert generalizing parts' with
  | nil => cases insert'; rfl
  | cons first _ ih =>
    cases insert' with
    | cons first' others => rw [first.unique first', ih others]

end Requests

namespace Graph

/-- A graph of which nothing gets lost or comes in when it is written: each line is read as its
statement, there are as many lines as statements, the lines make these statements and no other, and
so do the requests that insert the graph, part by part. -/
structure IsWhole (g : Graph) : Prop where
  statements : ∀ t ∈ g.triples, States t.render.toList t
  count : (g.render.toList.splitOnP isLineEnd).length = g.size + 1
  document : ∀ triples, Document g.render.toList triples ↔ triples = g.triples
  requests : ∀ chunk parts,
    List.Forall₂ Inserts (g.insertRequests chunk) parts ↔ parts = chunksOf chunk g.triples

/-- A graph is whole exactly if its statements fit. -/
theorem isWhole_iff {g : Graph} : g.IsWhole ↔ ∀ t ∈ g.triples, t.Fits := by
  constructor
  · intro whole t mem
    have inserted : List.Forall₂ Inserts (g.insertRequests 0) (chunksOf 0 g.triples) :=
      (whole.requests 0 _).mpr rfl
    rw [insertRequests, List.forall₂_map_left_iff, List.forall₂_same] at inserted
    rw [← flatten_chunksOf 0 g.triples] at mem
    obtain ⟨part, within, mem'⟩ := List.mem_flatten.mp mem
    obtain ⟨_, _, _, uncut⟩ := inserted part within
    rw [flatten_chunksOf] at mem
    exact ⟨Triple.isWritable_of_states (whole.statements t mem), (uncut t mem').1,
      (uncut t mem').2⟩
  · intro fit
    have states : List.Forall₂ States (g.triples.map (·.render.toList)) g.triples := by
      rw [List.forall₂_map_left_iff, List.forall₂_same]
      exact fun t mem => states_render (fit t mem).writable
    have document : Document g.render.toList g.triples := by
      rw [toList_render]
      exact document_of_states states
    have requests (chunk : Nat) :
        List.Forall₂ Inserts (g.insertRequests chunk) (chunksOf chunk g.triples) := by
      rw [insertRequests, List.forall₂_map_left_iff, List.forall₂_same]
      exact fun part within =>
        inserts_insertRequest fun t mem => fit t (mem_of_mem_chunksOf within mem)
    refine ⟨fun t mem => states_render (fit t mem).writable, ?_, fun triples => ⟨?_, ?_⟩,
      fun chunk parts => ⟨?_, ?_⟩⟩
    · rw [toList_render, splitOnP_unlines (unbroken_of_states states)]
      simp [size]
    · exact fun read => read.unique document
    · rintro rfl
      exact document
    · exact fun insert => requests_unique insert (requests chunk)
    · rintro rfl
      exact requests chunk

end Graph

/-- A label that fits both the lines of the format and requests. -/
structure FitsLabel (label : String) : Prop where
  valid : IsLabel label.toList
  uncut : ':' ∉ label.toList

/-- The blank nodes of a statement that fits have labels that fit. -/
theorem Triple.Fits.label {t : Triple} (fits : t.Fits) {label : String}
    (named : t.subject = .blank label ∨ t.object = .blank label) : FitsLabel label := by
  obtain ⟨writable, uncut, uncut'⟩ := fits
  rcases named with subject | object
  · have valid := writable.subject
    rw [subject] at valid uncut
    exact ⟨valid, uncut⟩
  · have valid := writable.object
    rw [object] at valid uncut'
    exact ⟨valid, uncut'⟩

theorem isLabelStart_of_isDigit {c : Char} (digit : c.isDigit = true) :
    isLabelStart c = true ∧ c ≠ ':' ∧ c ≠ '.' := by
  simp only [Char.isDigit, Bool.and_eq_true, decide_eq_true_eq] at digit
  have low : 48 ≤ c.toNat := UInt32.le_iff_toNat_le.mp digit.1
  have high : c.toNat ≤ 57 := UInt32.le_iff_toNat_le.mp digit.2
  refine ⟨Text.inRanges_iff.mpr ⟨(0x30, 0x3a), by simp, by omega, by omega⟩, ?_, ?_⟩
  · rintro rfl
    exact absurd high (by decide)
  · rintro rfl
    exact absurd low (by decide)

theorem isLabel_numbered {start numeral : List Char} (begins : start.head?.all isLabelStart = true)
    (parts : ∀ c ∈ start, isLabelPart c = true ∧ c ≠ ':')
    (digits : ∀ c ∈ numeral, c.isDigit = true) (filled : numeral ≠ []) :
    IsLabel (start ++ numeral) ∧ ':' ∉ start ++ numeral := by
  have whole : ∀ c ∈ start ++ numeral, isLabelPart c = true ∧ c ≠ ':' := by
    intro c mem
    rcases List.mem_append.mp mem with mem | mem
    · exact parts c mem
    · obtain ⟨begins, uncut, -⟩ := isLabelStart_of_isDigit (digits c mem)
      exact ⟨by simp [isLabelPart, begins], uncut⟩
  refine ⟨⟨?_, fun c mem => (whole c mem).1, ?_⟩, fun colon => (whole _ colon).2 rfl⟩
  · cases start with
    | cons c rest => exact begins
    | nil =>
      obtain ⟨d, rest, rfl⟩ := List.exists_cons_of_ne_nil filled
      exact (isLabelStart_of_isDigit (digits d (by simp))).1
  · rw [List.getLast?_append_of_ne_nil _ filled]
    intro stop
    exact (isLabelStart_of_isDigit (digits _ (List.mem_of_getLast? stop))).2.2 rfl

/-- A number behind a proper start makes a label. -/
theorem fitsLabel_numbered {start : String} (begins : start.toList.head?.all isLabelStart = true)
    (parts : ∀ c ∈ start.toList, isLabelPart c = true ∧ c ≠ ':') (n : Nat) :
    FitsLabel (start ++ toString n) := by
  have written : (start ++ toString n).toList = start.toList ++ Nat.toDigits 10 n := by simp
  have digits : ∀ c ∈ Nat.toDigits 10 n, c.isDigit = true :=
    fun c mem => Nat.isDigit_of_mem_toDigits (by omega) (by omega) mem
  obtain ⟨valid, uncut⟩ := isLabel_numbered begins parts digits Nat.toDigits_ne_nil
  rw [← written] at valid uncut
  exact ⟨valid, uncut⟩

namespace Engine
variable {σ : Type}

/-- The rules fit: labels may begin as minted ones do, and the literals that a run may state have
proper languages and datatypes. -/
structure RulesFit (engine : Engine σ) : Prop where
  begins : engine.config.blankPrefix.toList.head?.all isLabelStart = true
  parts : ∀ c ∈ engine.config.blankPrefix.toList, isLabelPart c = true ∧ c ≠ ':'
  worded : ∀ l, Worded engine l → (Term.literal l).IsWritable

/-- A node whose label was minted or fits is written whole. -/
theorem RulesFit.node {engine : Engine σ} (fit : RulesFit engine) {store : σ} {s : RunState σ}
    (traced : Traced engine store s) {term : Term} (known : Known engine store term s)
    (foreign : ∀ l, term = .blank l → Foreign engine store l → FitsLabel l)
    (told : Told engine term) : term.IsWritable ∧ term.IsUncut := by
  cases term with
  | iri => exact ⟨trivial, trivial⟩
  | blank l =>
    have fits : FitsLabel l := by
      rcases known l rfl with minted | other
      · obtain ⟨i, _, rfl⟩ := BlankNodes.mem_minted.mp minted
        rw [BlankNodes.label, traced.start]
        exact fitsLabel_numbered fit.begins fit.parts i
      · exact foreign l rfl other
    exact ⟨fits.valid, fits.uncut⟩
  | literal l => exact ⟨fit.worded l (told l rfl), trivial⟩

/-- Works in a store with their titles. -/
def workTitles : Engine (Scripted (List Binding) String) where
  mapping := { maps := [
    { iri := "works"
      logicalSource := some
        { formulation := .sparql, iterator := some "work", query := some "SELECT ?work ?title" }
      predicateObjectMaps := [{ predicate := "title", object := .reference "title" }] }] }
  store := some .scripted

theorem isWritable_string (value : String) : (Term.string value).IsWritable := by
  have plain : ∀ c ∈ Vocabulary.xsdString.toList, IsIriChar c := List.all_iff_forall_prop.mp rfl
  exact plain

theorem workTitles_rulesFit : RulesFit workTitles where
  begins := rfl
  parts c mem := by
    obtain rfl : c = 'b' := List.mem_singleton.mp mem
    exact ⟨rfl, by decide⟩
  worded l worded := by
    cases worded with
    | constant map part object =>
      obtain rfl := List.mem_singleton.mp map
      obtain rfl := List.mem_singleton.mp part
      cases object
    | additional map part triple =>
      obtain rfl := List.mem_singleton.mp map
      obtain rfl := List.mem_singleton.mp part
      cases triple
    | valued map part made =>
      obtain rfl := List.mem_singleton.mp map
      obtain rfl := List.mem_singleton.mp part
      rw [← made]
      exact isWritable_string _

/-- A work that is a blank node, and one whose name and title end brackets, quotes and the
request. -/
def hostileStore : Scripted (List Binding) String :=
  { answers := [.ok [
    [("title", .literal "Moby Dick"), ("work", { kind := "bnode", value := "n.1" })],
    [("title", .literal "\" .\n\x7d"), ("work", { kind := "uri", value := "w> <p> <o> .\n<v" })]]] }

def hostileGraph : Graph :=
  (after workTitles [.all .none .empty] (start workTitles.config hostileStore)).graph

theorem triples_hostileGraph : hostileGraph.triples =
    [⟨.blank "n.1", .iri "title", .string "Moby Dick"⟩,
      ⟨.iri "w> <p> <o> .\n<v", .iri "title", .string "\" .\n\x7d"⟩] := by decide +kernel

/-- The store gives a work whose label is more than a label. -/
def forgingStore : Scripted (List Binding) String :=
  { answers := [.ok [[("title", .literal "Moby Dick"),
    ("work", { kind := "bnode", value := "x <urn:p> <urn:o> .\n_:y" })]]] }

/-- What is read where the one statement of the graph is written. -/
def forgedTriples : List Triple :=
  [⟨.blank "x", .iri "urn:p", .iri "urn:o"⟩, ⟨.blank "y", .iri "title", .string "Moby Dick"⟩]

theorem fitsLabel_letter {c : Char} (letter : isLabelStart c = true) (uncut : c ≠ ':')
    (stop : c ≠ '.') : FitsLabel (String.singleton c) := by
  have single : (String.singleton c).toList = [c] := by simp
  refine ⟨⟨?_, ?_, ?_⟩, ?_⟩
  · simpa [single] using letter
  · simp [single, isLabelPart, letter]
  · simpa [single] using stop
  · simpa [single] using Ne.symm uncut

theorem fits_forgedTriples : ∀ t ∈ forgedTriples, t.Fits := by
  have x : FitsLabel "x" := fitsLabel_letter (c := 'x') rfl (by decide) (by decide)
  have y : FitsLabel "y" := fitsLabel_letter (c := 'y') rfl (by decide) (by decide)
  simp only [forgedTriples, List.forall_mem_cons]
  exact ⟨⟨⟨rfl, rfl, x.valid, trivial⟩, x.uncut, trivial⟩,
    ⟨⟨rfl, rfl, y.valid, isWritable_string _⟩, y.uncut, trivial⟩, by simp⟩

end Engine
end CatalogGraph
