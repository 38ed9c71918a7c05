import CatalogGraph.Harvest.Response
import CatalogGraph.Proofs.ShownContent
import CatalogGraph.Proofs.TrimmedTexts

/-!
Spelled listings: a page of a listing is read back from every document that states it, whatever else
stands between the headers and within them. A document with an error in its root gives that error,
or an empty page, and no part of a page.
-/
namespace CatalogGraph.Harvest
open Xml

/-! ### Documents that state a page -/

/-- The local names that count in a response. -/
def counted : List String := ["header", "identifier", "resumptionToken", "error"]

/-- No element in content, however deep, has one of some local names. -/
def Avoids (names : List String) : Content → Prop
  | .nil => True
  | .text _ rest => Avoids names rest
  | .element tag within rest => tag.localName ∉ names ∧ Avoids names within ∧ Avoids names rest

instance decidableAvoids (names : List String) :
    (content : Content) → Decidable (Avoids names content)
  | .nil => .isTrue trivial
  | .text _ rest => decidableAvoids names rest
  | .element tag within rest =>
    have := decidableAvoids names within
    have := decidableAvoids names rest
    inferInstanceAs (Decidable (tag.localName ∉ names ∧ Avoids names within ∧ Avoids names rest))

/-- The first element with a local name that stands directly in content. -/
inductive FirstNamed (name : String) (tag : Tag) (within : Content) : Content → Prop
  | here {rest} (named : tag.localName = name) :
      FirstNamed name tag within (.element tag within rest)
  | text {characters rest} (onward : FirstNamed name tag within rest) :
      FirstNamed name tag within (.text characters rest)
  | past {other inner rest} (differs : other.localName ≠ name)
      (onward : FirstNamed name tag within rest) :
      FirstNamed name tag within (.element other inner rest)

/-- The header of a record that is there, with its identifier. -/
structure IsHeader (id : String) (tag : Tag) (within : Content) : Prop where
  name : tag.localName = "header"
  status : tag.attribute? "status" ≠ some "deleted"
  others : Avoids ["header", "resumptionToken", "error"] within
  identifier : ∃ inner content, FirstNamed "identifier" inner content within ∧
    Text.trim content.characters = id

/-- The header of a record that is deleted. -/
structure IsDeleted (tag : Tag) (within : Content) : Prop where
  name : tag.localName = "header"
  status : tag.attribute? "status" = some "deleted"
  others : Avoids ["header", "resumptionToken", "error"] within

/-- What stands behind the headers: an element for the token and the size, if there are any. -/
inductive Resumes : Option String → Option Nat → Content → Prop
  | nothing {rest} (others : Avoids counted rest) : Resumes none none rest
  | element {token size tag within rest} (name : tag.localName = "resumptionToken")
      (inner : Avoids counted within) (stands : Text.trim within.characters = token.getD "")
      (states : tag.attribute? "completeListSize" = size.map toString)
      (others : Avoids counted rest) : Resumes token size (.element tag within rest)

/-- The headers for identifiers in order, among deleted ones, texts and other elements, and what
stands behind them. -/
inductive Lists (token : Option String) (size : Option Nat) : List String → Content → Prop
  | ends {rest} (resumes : Resumes token size rest) : Lists token size [] rest
  | text {ids characters rest} (onward : Lists token size ids rest) :
      Lists token size ids (.text characters rest)
  | other {ids tag within rest} (name : tag.localName ∉ counted) (inner : Avoids counted within)
      (onward : Lists token size ids rest) : Lists token size ids (.element tag within rest)
  | deleted {ids tag within rest} (header : IsDeleted tag within)
      (onward : Lists token size ids rest) : Lists token size ids (.element tag within rest)
  | header {id ids tag within rest} (header : IsHeader id tag within)
      (onward : Lists token size ids rest) : Lists token size (id :: ids) (.element tag within rest)

/-- A root in which a page is listed, among texts and other elements. -/
inductive Holds (page : ListingPage) : Content → Prop
  | text {characters rest} (onward : Holds page rest) : Holds page (.text characters rest)
  | other {tag within rest} (name : tag.localName ∉ counted) (inner : Avoids counted within)
      (onward : Holds page rest) : Holds page (.element tag within rest)
  | listing {tag within rest} (name : tag.localName = "ListIdentifiers")
      (lists : Lists page.token page.size page.identifiers within) (others : Avoids counted rest) :
      Holds page (.element tag within rest)

/-- A text spells a document that lists a page. -/
def States (page : ListingPage) (text : String) : Prop :=
  ∃ (content : Content) (tag : Tag) (within : Content), content.IsSpelt text ∧
    content.roots = .element tag within .nil ∧ tag.localName = "OAI-PMH" ∧ Holds page within

/-- A page that a document may list. -/
structure IsPage (page : ListingPage) : Prop where
  identifiers : ∀ id ∈ page.identifiers, id ≠ "" ∧ Text.trim id = id
  token : ∀ token ∈ page.token, token ≠ "" ∧ Text.trim token = token
  size : ∀ size ∈ page.size, size < UInt64.size

/-! ### Reading documents -/

section Reading
variable {d : Document} {content within : Content} {ids : List Nat} {names : List String}
  {name : String} {tag : Tag} {id : Nat} {page : ListingPage}

theorem attribute?_eq (attributes : (d.element id).attributes.map
    (fun a => (a.name.localName, a.value)) = tag.attributes) (name : String) :
    attribute? d id name = tag.attribute? name := by
  rw [Tag.attribute?, ← attributes, List.find?_map, Option.map_map]
  rfl

/-- What is read of the first of some elements that has a name. -/
theorem find?_of_firstNamed (first : FirstNamed name tag within content)
    (shows : d.Shows ids content) :
    ∃ id, (ids.find? fun child => (d.element child).name.localName == name) = some id ∧
      (∀ key, attribute? d id key = tag.attribute? key) ∧
      trimmedText d id = Text.trim within.characters := by
  induction first generalizing ids with
  | here named =>
    cases shows with
    | @element id _ _ _ _ same attributes characters _ _ =>
      exact ⟨id, by simp [same, named], attribute?_eq attributes, congrArg Text.trim characters⟩
  | text _ ih =>
    cases shows with
    | text onward => exact ih onward
  | past differs _ ih =>
    cases shows with
    | element same _ _ _ onward =>
      obtain ⟨id, found, rest⟩ := ih onward
      exact ⟨id, by simp [same, differs, found], rest⟩

theorem find?_of_avoids (avoids : Avoids names content) (mem : name ∈ names)
    (shows : d.Shows ids content) :
    (ids.find? fun child => (d.element child).name.localName == name) = none := by
  induction shows with
  | nil => rfl
  | text _ ih => exact ih avoids
  | @element _ _ tag _ _ same _ _ _ _ _ ih =>
    have other : tag.localName ≠ name := fun here => avoids.1 (here ▸ mem)
    simp [same, other, ih avoids.2.2]

/-- The page with what elements and those within them add to it. -/
def scan (d : Document) (ids : List Nat) (page : ListingPage) : Except HarvestError ListingPage :=
  (ids.flatMap d.descendantsOrSelf).foldlM (readElement d) page

theorem scan_cons (ordered : d.InOrder) {page' page'' : ListingPage}
    (read : readElement d page id = .ok page')
    (inside : scan d (d.childElements id) page' = .ok page'') :
    scan d (id :: ids) page = scan d ids page'' := by
  unfold scan at inside ⊢
  rw [List.flatMap_cons, ordered.descendantsOrSelf_eq, List.cons_append, List.foldlM_cons, read]
  change (List.foldlM _ _ _) = _
  rw [List.foldlM_append, inside]
  rfl

theorem readElement_other (header : (d.element id).name.localName ≠ "header")
    (token : (d.element id).name.localName ≠ "resumptionToken") (page : ListingPage) :
    readElement d page id = .ok page := by
  unfold readElement
  split
  next same => exact absurd same header
  next same => exact absurd same token
  next => rfl

theorem scan_avoids (ordered : d.InOrder) (avoids : Avoids names content)
    (header : "header" ∈ names) (token : "resumptionToken" ∈ names) (shows : d.Shows ids content)
    (page : ListingPage) : scan d ids page = .ok page := by
  induction shows generalizing page with
  | nil => rfl
  | text _ ih => exact ih avoids page
  | element same _ _ _ _ ihWithin ih =>
    obtain ⟨name, inner, others⟩ := avoids
    rw [← same] at name
    rw [scan_cons ordered (readElement_other (fun here => name (here ▸ header))
      (fun here => name (here ▸ token)) page) (ihWithin inner page), ih others]

/-- An element that does not count is passed over with all within it. -/
theorem scan_other (ordered : d.InOrder) (name : tag.localName ∉ counted)
    (same : (d.element id).name.localName = tag.localName) (inner : Avoids counted within)
    (inside : d.Shows (d.childElements id) within) (page : ListingPage) :
    scan d (id :: ids) page = scan d ids page := by
  rw [← same] at name
  have read := readElement_other (fun here => name (here ▸ by decide))
    (fun here => name (here ▸ by decide)) page
  exact scan_cons ordered read (scan_avoids ordered inner (by decide) (by decide) inside page)

theorem word?_toString {n : Nat} (bound : n < UInt64.size) :
    Text.word? (Text.trim (toString n)) = some n := by
  have digits : ∀ c ∈ (toString n).toList, c.isDigit := fun _ => XPath.isDigit_of_mem_toString
  have trimmed : Text.IsTrimmed (toString n).toList :=
    ⟨fun c mem => Text.not_blank_of_isDigit (digits c (List.mem_of_mem_head? mem)),
      fun c mem => Text.not_blank_of_isDigit (digits c (List.mem_of_getLast? mem))⟩
  have value : Text.numberOf (toString n).toList = n := XPath.decimalValue_toString n
  have filled : (toString n).toList ≠ [] := by simp [Nat.toList_repr]
  obtain ⟨c, rest, whole⟩ := List.exists_cons_of_ne_nil filled
  rw [whole] at digits value
  have sign : c ≠ '+' := by
    rintro rfl
    exact absurd (digits _ List.mem_cons_self) (by decide)
  have all : (c :: rest).all Char.isDigit = true := List.all_eq_true.mpr digits
  rw [Text.trim, trimmed.trimChars_eq, String.ofList_toList, Text.word?]
  unfold Text.numeral?
  rw [whole]
  dsimp only
  split
  next signed => exact absurd (List.cons.inj signed).1 sign
  next =>
    rw [all, value]
    simp [bound]

theorem readElement_header (name : (d.element id).name.localName = "header")
    (page : ListingPage) : readElement d page id = .ok { page with
      identifiers := page.identifiers ++ (headerIdentifier? d id).toList } := by
  rw [readElement, name]
  rfl

theorem scan_resumes (ordered : d.InOrder) {token : Option String} {size : Option Nat}
    (resumes : Resumes token size content) (filled : token ≠ some "")
    (bound : ∀ n ∈ size, n < UInt64.size) (shows : d.Shows ids content) (found : List String) :
    scan d ids { identifiers := found } = .ok { identifiers := found, token, size } := by
  cases resumes with
  | nothing others => exact scan_avoids ordered others (by decide) (by decide) shows _
  | @element _ _ tag within rest name inner stands states others =>
    cases shows with
    | @element id _ _ _ _ same attributes characters inside onward =>
      have size' : statedSize d id = .ok size := by
        rw [statedSize, attribute?_eq attributes, states]
        cases size with
        | none => rfl
        | some n =>
          dsimp only [Option.map_some]
          rw [word?_toString (bound n rfl)]
      have token' : (some (trimmedText d id)).filter (· ≠ "") = token := by
        rw [trimmedText, characters, stands]
        cases token with
        | none => rfl
        | some token =>
          have other : token ≠ "" := fun none => filled (congrArg some none)
          simp [other]
      have read : readElement d { identifiers := found } id =
          .ok { identifiers := found, token, size } := by
        rw [readElement, same.trans name]
        dsimp only
        rw [size', token']
        rfl
      rw [scan_cons ordered read (scan_avoids ordered inner (by decide) (by decide) inside _)]
      exact scan_avoids ordered others (by decide) (by decide) onward _

theorem headerIdentifier?_eq {header : String} (live : IsHeader header tag within)
    (filled : header ≠ "")
    (attributes : ∀ key, attribute? d id key = tag.attribute? key)
    (inside : d.Shows (d.childElements id) within) : headerIdentifier? d id = some header := by
  obtain ⟨inner, content, first, rfl⟩ := live.identifier
  obtain ⟨child, found, -, text⟩ := find?_of_firstNamed first inside
  rw [headerIdentifier?, attributes, if_neg live.status, childNamed?, found, Option.map_some, text]
  simp [filled]

theorem scan_lists (ordered : d.InOrder) {token : Option String} {size : Option Nat}
    {listed : List String} (lists : Lists token size listed content) (filled : token ≠ some "")
    (bound : ∀ n ∈ size, n < UInt64.size) (ids_filled : ∀ header ∈ listed, header ≠ "")
    (shows : d.Shows ids content) (found : List String) :
    scan d ids { identifiers := found } = .ok { identifiers := found ++ listed, token, size } := by
  induction lists generalizing ids found with
  | ends resumes =>
    rw [List.append_nil]
    exact scan_resumes ordered resumes filled bound shows found
  | text _ ih =>
    cases shows with
    | text onward => exact ih ids_filled onward found
  | other name inner _ ih =>
    cases shows with
    | element same _ _ inside onward =>
      rw [scan_other ordered name same inner inside]
      exact ih ids_filled onward found
  | deleted header _ ih =>
    cases shows with
    | element same attributes _ inside onward =>
      have read := readElement_header (same.trans header.name) { identifiers := found }
      rw [headerIdentifier?, attribute?_eq attributes, if_pos header.status, Option.toList_none,
        List.append_nil] at read
      rw [scan_cons ordered read
        (scan_avoids ordered header.others (by decide) (by decide) inside _)]
      exact ih ids_filled onward found
  | @header header _ _ _ _ live _ ih =>
    cases shows with
    | element same attributes _ inside onward =>
      obtain ⟨first, ids_filled⟩ := List.forall_mem_cons.mp ids_filled
      have read := readElement_header (same.trans live.name) { identifiers := found }
      rw [headerIdentifier?_eq live first (attribute?_eq attributes) inside] at read
      rw [scan_cons ordered read
        (scan_avoids ordered live.others (by decide) (by decide) inside _)]
      rw [List.append_cons]
      exact ih ids_filled onward _

theorem scan_holds (ordered : d.InOrder) (holds : Holds page content) (isPage : IsPage page)
    (shows : d.Shows ids content) : scan d ids {} = .ok page := by
  induction holds generalizing ids with
  | text _ ih =>
    cases shows with
    | text onward => exact ih onward
  | other name inner _ ih =>
    cases shows with
    | element same _ _ inside onward =>
      rw [scan_other ordered name same inner inside]
      exact ih onward
  | listing name lists others =>
    cases shows with
    | @element id _ _ _ _ same _ _ inside onward =>
      have named := same.trans name
      have read : readElement d {} id = .ok {} :=
        readElement_other (by rw [named]; decide) (by rw [named]; decide) _
      have filled : page.token ≠ some "" := fun none => (isPage.token "" none).1 rfl
      have listed := scan_lists ordered lists filled isPage.size
        (fun id mem => (isPage.identifiers id mem).1) inside []
      rw [scan_cons ordered read listed]
      exact scan_avoids ordered others (by decide) (by decide) onward _

theorem find?_error_of_holds (holds : Holds page content) (shows : d.Shows ids content) :
    (ids.find? fun child => (d.element child).name.localName == "error") = none := by
  induction holds generalizing ids with
  | text _ ih =>
    cases shows with
    | text onward => exact ih onward
  | @other tag _ _ name _ _ ih =>
    cases shows with
    | element same _ _ _ onward =>
      have other : tag.localName ≠ "error" := fun here => name (here ▸ by decide)
      simp [same, other, ih onward]
  | listing name _ others =>
    cases shows with
    | element same _ _ _ onward =>
      have none := find?_of_avoids others (show "error" ∈ counted by decide) onward
      simp [same, name, none]

/-- What is answered where an error is reported with a code or without one. -/
def answered (code : Option String) (message : String) : Except HarvestError ListingPage :=
  if code.getD "unknown" = "noRecordsMatch" then .ok {}
  else .error (.protocol (code.getD "unknown") message)

theorem readListing_of_error {text : String} {root error : Nat}
    (parsed : Document.parse text = .ok d) (rooted : d.root? = some root)
    (first : childNamed? d root "error" = some error) :
    readListing text = answered (attribute? d error "code") (trimmedText d error) := by
  have reported : reportedError? d = some (.protocol ((attribute? d error "code").getD "unknown")
      (trimmedText d error)) := by
    rw [reportedError?, rooted]
    simp [first]
  rw [readListing, readResponse, parsed]
  simp only [reported]
  rfl

theorem readListing_of_states {text : String} (isPage : IsPage page) (states : States page text) :
    readListing text = .ok page := by
  obtain ⟨content, tag, within, spelt, rooted, name, holds⟩ := states
  obtain ⟨d, parsed, ordered, shows⟩ := parse_of_spelt spelt rooted
  have outside := (Document.parsed_elements_form_tree parsed).1.2.2.1
  rw [rooted] at shows
  generalize roots : d.childElements documentId = ids at shows
  cases shows with
  | @element id _ _ _ _ same _ _ inside onward =>
    cases onward with
    | nil =>
      have silent : reportedError? d = none := by
        rw [reportedError?, Document.root?, roots]
        simp [childNamed?, find?_error_of_holds holds inside]
      have named := same.trans name
      have read : readElement d {} id = .ok {} :=
        readElement_other (by rw [named]; decide) (by rw [named]; decide) _
      have document : readElement d {} documentId = .ok {} :=
        readElement_other (by rw [outside]; decide) (by rw [outside]; decide) _
      have within : scan d [id] {} = scan d [] page :=
        scan_cons ordered read (scan_holds ordered holds isPage inside)
      have whole : scan d [documentId] {} = scan d [] page :=
        scan_cons ordered document (by rw [roots]; exact within)
      rw [readListing, readResponse, parsed]
      simp only [silent]
      rw [scan, List.flatMap_singleton] at whole
      exact whole

theorem readListing_of_firstNamed {text : String} {root : Tag} {rest : Content}
    (spelt : content.IsSpelt text) {inner : Content}
    (rooted : content.roots = .element root inner rest)
    (first : FirstNamed "error" tag within inner) :
    readListing text = answered (tag.attribute? "code") (Text.trim within.characters) := by
  obtain ⟨d, parsed, ordered, shows⟩ := parse_of_spelt spelt rooted
  rw [rooted] at shows
  generalize roots : d.childElements documentId = ids at shows
  cases shows with
  | @element id _ _ _ _ _ _ _ inside _ =>
    obtain ⟨error, found, attributes, characters⟩ := find?_of_firstNamed first inside
    have rootFound : d.root? = some id := by rw [Document.root?, roots]; rfl
    rw [readListing_of_error parsed rootFound found, attributes, characters]

end Reading

/-! ### Writing pages -/

/-- A header with an identifier. -/
def headerContent (id : String) (rest : Content) : Content :=
  .element ⟨"header".toList, []⟩
    (.element ⟨"identifier".toList, []⟩ (.text id .nil) .nil) rest

/-- The element for a token and a size. -/
def resumption (token : Option String) (size : Option Nat) : Content :=
  .element ⟨"resumptionToken".toList,
      (size.map fun n => ("completeListSize".toList, toString n)).toList⟩
    (match token with
      | some token => .text token .nil
      | none => .nil) .nil

/-- The list of a page. -/
def listContent (page : ListingPage) : Content :=
  page.identifiers.foldr headerContent
    (if page.token = none ∧ page.size = none then .nil else resumption page.token page.size)

/-- A document for a page. -/
def pageContent (page : ListingPage) : Content :=
  .element ⟨"OAI-PMH".toList, [("xmlns".toList, "http://www.openarchives.org/OAI/2.0/")]⟩
    (.element ⟨"ListIdentifiers".toList, []⟩ (listContent page) .nil) .nil

def pageText (page : ListingPage) : String := String.ofList (pageContent page).written

section Writing
variable {page : ListingPage}

theorem isHeader_headerContent {id : String} (trimmed : Text.trim id = id) :
    IsHeader id ⟨"header".toList, []⟩
      (.element ⟨"identifier".toList, []⟩ (.text id .nil) .nil) where
  name := by decide
  status := nofun
  others := ⟨by decide, trivial, trivial⟩
  identifier := ⟨_, _, .here (by decide), by rwa [Content.characters, Content.characters,
    String.append_empty]⟩

theorem resumes_resumption (token : Option String) (size : Option Nat)
    (trimmed : ∀ text ∈ token, Text.trim text = text) :
    Resumes token size (resumption token size) := by
  have name : String.ofList (splitName "resumptionToken".toList).2 = "resumptionToken" := by decide
  refine .element name ?_ ?_ ?_ trivial
  · cases token <;> trivial
  · cases token with
    | none => decide
    | some text =>
      change Text.trim (text ++ "") = text
      rw [String.append_empty, trimmed text rfl]
  · cases size <;> rfl

theorem lists_headers {token : Option String} {size : Option Nat} {rest : Content}
    (resumes : Resumes token size rest) {ids : List String}
    (trimmed : ∀ id ∈ ids, Text.trim id = id) :
    Lists token size ids (ids.foldr headerContent rest) := by
  induction ids with
  | nil => exact .ends resumes
  | cons id ids ih =>
    obtain ⟨first, trimmed⟩ := List.forall_mem_cons.mp trimmed
    exact .header (isHeader_headerContent first) (ih trimmed)

theorem lists_listContent (isPage : IsPage page) :
    Lists page.token page.size page.identifiers (listContent page) := by
  refine lists_headers ?_ fun id mem => (isPage.identifiers id mem).2
  split
  next none =>
    rw [none.1, none.2]
    exact .nothing trivial
  next => exact resumes_resumption _ _ fun token mem => (isPage.token token mem).2

theorem isWritable_headers {rest : Content} (last : rest.IsWritable) {ids : List String}
    (filled : ∀ id ∈ ids, id ≠ "") : (ids.foldr headerContent rest).IsWritable := by
  induction ids with
  | nil => exact last
  | cons id ids ih =>
    obtain ⟨first, filled⟩ := List.forall_mem_cons.mp filled
    have inner : (Content.element ⟨"identifier".toList, []⟩ (.text id .nil) .nil).IsWritable :=
      ⟨⟨by decide, nofun, .nil⟩, ⟨first, trivial⟩, trivial⟩
    exact ⟨⟨by decide, nofun, .nil⟩, inner, ih filled⟩

theorem isWritable_listContent (isPage : IsPage page) : (listContent page).IsWritable := by
  refine isWritable_headers ?_ fun id mem => (isPage.identifiers id mem).1
  split
  next => trivial
  next =>
    have name : IsName "resumptionToken".toList := by decide
    have key : IsName "completeListSize".toList := by decide
    refine ⟨⟨name, ?_, ?_⟩, ?_, trivial⟩
    · cases page.size with
      | none => exact nofun
      | some n => exact List.forall_mem_singleton.mpr key
    · cases page.size with
      | none => exact .nil
      | some n => exact List.nodup_singleton _
    · cases found : page.token with
      | none => trivial
      | some token => exact ⟨(isPage.token token found).1, trivial⟩

theorem isWritable_pageContent (isPage : IsPage page) : (pageContent page).IsWritable :=
  ⟨⟨by decide, List.forall_mem_singleton.mpr (by decide), List.nodup_singleton _⟩,
    ⟨⟨by decide, nofun, .nil⟩, isWritable_listContent isPage, trivial⟩, trivial⟩

theorem states_pageText (isPage : IsPage page) : States page (pageText page) := by
  have spells := spells_written (isWritable_pageContent isPage)
  refine ⟨pageContent page, _, _, ⟨_, spells, .inr ⟨String.toList_ofList, nofun⟩⟩, rfl, ?_, ?_⟩
  · decide
  · exact .listing (by decide) (lists_listContent isPage) trivial

end Writing

/-- Every text of a document that states a page is read as that page, and for every page there is
such a text. A document whose first root has a child for an error gives the first one, with its code
and its text, or an empty page where the code is that of an empty listing. -/
theorem stated_page_read_back :
    (∀ page text, IsPage page → States page text → readListing text = .ok page) ∧
    (∀ page, IsPage page → States page (pageText page)) ∧
    (∀ (text : String) (content : Content) (root tag : Tag) (inner within rest : Content),
      content.IsSpelt text → content.roots = .element root inner rest →
      FirstNamed "error" tag within inner →
      readListing text = answered (tag.attribute? "code") (Text.trim within.characters)) ∧
    (∀ text d root before error after, Document.parse text = .ok d → d.root? = some root →
      d.childElements root = before ++ error :: after →
      (d.element error).name.localName = "error" →
      (∀ child ∈ before, (d.element child).name.localName ≠ "error") →
      readListing text =
        answered (attribute? d error "code") (Text.trim (d.textContent error))) := by
  refine ⟨fun _ _ => readListing_of_states, fun _ => states_pageText,
    fun _ _ _ _ _ _ _ spelt rooted first => readListing_of_firstNamed spelt rooted first, ?_⟩
  intro text d root before error after parsed rooted children named others
  refine readListing_of_error parsed rooted ?_
  rw [childNamed?, List.find?_eq_some_iff_append]
  exact ⟨by simpa using named, before, after, children,
    fun child mem => by simpa using others child mem⟩

/-- A list with a deleted record, white space around an identifier, and dates. -/
def datedList : Content :=
  .element ⟨"header".toList, []⟩
    (.element ⟨"identifier".toList, []⟩ (.text "oai:repo:1" .nil)
      (.element ⟨"datestamp".toList, []⟩ (.text "2024-01-01" .nil) .nil)) <|
  .element ⟨"header".toList, [("status".toList, "deleted")]⟩
    (.element ⟨"identifier".toList, []⟩ (.text "oai:repo:2" .nil) .nil) <|
  .element ⟨"header".toList, []⟩
    (.element ⟨"identifier".toList, []⟩ (.text " oai:repo:3 & 4 " .nil) .nil) <|
  .element ⟨"resumptionToken".toList,
      [("completeListSize".toList, "25"), ("cursor".toList, "0")]⟩
    (.text "mods/0/10" .nil) .nil

/-- A document with one element in its root. -/
def responseWith (tag : Tag) (within : Content) : Content :=
  .element ⟨"OAI-PMH".toList, []⟩ (.element tag within .nil) .nil

theorem isSpelt_responseWith {tag : Tag} {within : Content}
    (writable : (responseWith tag within).IsWritable) :
    (responseWith tag within).IsSpelt (String.ofList (responseWith tag within).written) :=
  ⟨_, spells_written writable, .inr ⟨String.toList_ofList, nofun⟩⟩

theorem dated_list_read_back :
    readListing (String.ofList
      (responseWith ⟨"ListIdentifiers".toList, []⟩ datedList).written) =
        .ok { identifiers := ["oai:repo:1", "oai:repo:3 & 4"], token := some "mods/0/10",
              size := some 25 } ∧
    readListing (String.ofList
      (responseWith ⟨"error".toList, [("code".toList, "badArgument")]⟩
        (.text " No such set " .nil)).written) =
      .error (.protocol "badArgument" "No such set") := by
  obtain ⟨read, -, reported, -⟩ := stated_page_read_back
  constructor
  · have lists : Lists (some "mods/0/10") (some 25) ["oai:repo:1", "oai:repo:3 & 4"] datedList :=
      .header ⟨by decide, by decide, by decide, _, _, .here (by decide), by decide⟩ <|
      .deleted ⟨by decide, by decide, by decide⟩ <|
      .header ⟨by decide, by decide, by decide, _, _, .here (by decide), by decide⟩ <|
      .ends <| .element (by decide) (by decide) (by decide) (by decide) (by decide)
    refine read _ _ ⟨by decide, by decide, by decide⟩ ?_
    exact ⟨_, _, _, isSpelt_responseWith (by decide), rfl, by decide,
      .listing (by decide) lists trivial⟩
  · exact (reported _ _ _ _ _ _ _ (isSpelt_responseWith (by decide)) rfl
      (.here (by decide))).trans (by decide)

end CatalogGraph.Harvest
