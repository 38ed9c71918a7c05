import CatalogGraph.Proofs.DocumentText
import CatalogGraph.Proofs.SpelledDocuments

/-!
Shown content: the document that is built from content has an element for each one in it, with its
name, its attributes, its text and, in order, its children. So whatever a document says can be read
off the content that its text spells.
-/
namespace CatalogGraph.Xml

namespace Content

/-- How many elements content has. -/
def size : Content → Nat
  | .nil => 0
  | .text _ rest => rest.size
  | .element _ within rest => within.size + 1 + rest.size

/-- The text in content, in order. -/
def characters : Content → String
  | .nil => ""
  | .text characters rest => characters ++ rest.characters
  | .element _ within rest => within.characters ++ rest.characters

/-- Content without the texts outside its elements. -/
def roots : Content → Content
  | .nil => .nil
  | .text _ rest => rest.roots
  | .element tag within rest => .element tag within rest.roots

/-- What an element gets from content as children if the first element in it gets a number. -/
def children (next : Nat) : Content → List Child
  | .nil => []
  | .text characters rest => .text characters :: rest.children next
  | .element _ within rest => .element next :: rest.children (next + 1 + within.size)

/-- Children put in place one after the other. -/
def joined (before more : List Child) : List Child :=
  more.foldl (fun children child => Builder.appendChild child children) before

/-- The elements of content in the order of their numbers. -/
def elements (scopes : List Declarations) (parent next : Nat) : Content → List Element
  | .nil => []
  | .text _ rest => rest.elements scopes parent next
  | .element tag within rest =>
    let inner := declarationsOf tag.written :: scopes
    { name := resolveName inner true tag.rawName
      attributes := plainAttributes inner tag.written
      parent := some parent
      children := joined [] (within.children (next + 1)) } ::
        (within.elements inner next (next + 1) ++
          rest.elements scopes parent (next + 1 + within.size))

variable {scopes : List Declarations} {parent next : Nat} {content : Content}

theorem length_elements (content : Content) (scopes : List Declarations) (parent next : Nat) :
    (content.elements scopes parent next).length = content.size := by
  induction content generalizing scopes parent next with
  | nil => rfl
  | text characters rest ih => exact ih scopes parent next
  | element tag within rest ihWithin ih =>
    rw [elements, List.length_cons, List.length_append, ihWithin, ih, size]
    omega

theorem roots_ne_text (content : Content) {characters : String} {rest : Content} :
    content.roots ≠ .text characters rest := by
  induction content with
  | nil => exact nofun
  | text _ _ ih => exact ih
  | element => exact nofun

theorem roots_roots (content : Content) : content.roots.roots = content.roots := by
  induction content with
  | nil => rfl
  | text _ _ ih => exact ih
  | element tag within rest _ ih => exact congrArg (Content.element tag within) ih

theorem joined_append (before first second : List Child) :
    joined before (first ++ second) = joined (joined before first) second :=
  List.foldl_append

theorem filterMap_joined (before more : List Child) :
    (joined before more).filterMap Builder.elementId? =
      before.filterMap Builder.elementId? ++ more.filterMap Builder.elementId? := by
  induction more generalizing before with
  | nil => simp [joined]
  | cons child rest ih =>
    change (joined (Builder.appendChild child before) rest).filterMap _ = _
    rw [ih, Builder.filterMap_appendChild, List.append_assoc]
    cases found : Builder.elementId? child <;> simp [found]

theorem join_joined (d : Document) (before more : List Child) :
    String.join ((joined before more).map d.childText) =
      String.join (before.map d.childText) ++ String.join (more.map d.childText) := by
  induction more generalizing before with
  | nil => simp [joined]
  | cons child rest ih =>
    change String.join ((joined (Builder.appendChild child before) rest).map _) = _
    rw [ih]
    cases child with
    | text content =>
      rw [Builder.join_appendChild, List.map_cons, String.join_cons, String.append_assoc]
      rfl
    | element id =>
      have last : Builder.appendChild (.element id) before = before ++ [.element id] := by
        simp [Builder.appendChild]
      rw [last]
      simp [String.append_assoc]

end Content

namespace Builder

/-- A document that got elements behind its own, and an element `p` of it children. -/
structure Laid (d : Document) (p : Nat) (children : List Child) (elements : List Element)
    (d' : Document) : Prop where
  size : d'.size = d.size + elements.length
  kept : ∀ i < d.size, d'.element i =
    if i = p then { d.element i with children := Content.joined (d.element i).children children }
    else d.element i
  added : ∀ k e, elements[k]? = some e → d'.element (d.size + k) = e

section Laid
variable {d d' d'' : Document} {p : Nat} {children more : List Child}
  {elements others : List Element} {e : Element}

theorem Laid.refl (d : Document) (p : Nat) : Laid d p [] [] d where
  size := rfl
  kept i _ := by
    split
    next => rfl
    next => rfl
  added _ _ := nofun

theorem Laid.trans (bound : p < d.size) (first : Laid d p children elements d')
    (second : Laid d' p more others d'') :
    Laid d p (children ++ more) (elements ++ others) d'' where
  size := by
    rw [second.size, first.size, List.length_append]
    omega
  kept i inside := by
    have := first.size
    rw [second.kept i (by omega), first.kept i inside]
    split
    next => rw [Content.joined_append]
    next => rfl
  added k e found := by
    have := first.size
    rcases Nat.lt_or_ge k elements.length with before | behind
    · rw [List.getElem?_append_left before] at found
      rw [second.kept _ (by omega), if_neg (by omega), first.added k e found]
    · rw [List.getElem?_append_right behind] at found
      have place : d'.size + (k - elements.length) = d.size + k := by omega
      exact place ▸ second.added _ e found

theorem Laid.within (first : Laid d p [.element d.size] [e] d')
    (empty : e.children = []) (second : Laid d' d.size more others d'') :
    Laid d p [.element d.size] ({ e with children := Content.joined [] more } :: others) d'' where
  size := by
    have size : d'.size = d.size + 1 := first.size
    rw [second.size, List.length_cons]
    omega
  kept i inside := by
    have := first.size
    rw [second.kept i (by omega), if_neg inside.ne, first.kept i inside]
  added k e' found := by
    have size : d'.size = d.size + 1 := first.size
    cases k with
    | zero =>
      have new : d'.element d.size = e := first.added 0 e rfl
      rw [Nat.add_zero, second.kept _ (by omega), if_pos rfl, new, empty]
      exact Option.some.inj found
    | succ k =>
      have place : d'.size + k = d.size + (k + 1) := by omega
      exact place ▸ second.added k e' found

theorem laid_text (d : Document) (p : Nat) (characters : String) :
    Laid d p [.text characters] [] (addChild d p (.text characters)) where
  size := size_addChild _ _ _
  kept i inside := by
    rw [element_addChild]
    by_cases here : i = p
    · rw [if_pos here, if_pos ⟨here.symm, inside⟩]
      rfl
    · rw [if_neg here, if_neg (fun h => here h.1.symm)]
  added _ _ := nofun

theorem laid_element {b : Builder} (bound : b.current < b.document.size) (tag : Tag) :
    Laid b.document b.current [.element b.document.size]
      [{ name := resolveName (declarationsOf tag.written :: b.scopes) true tag.rawName
         attributes := plainAttributes (declarationsOf tag.written :: b.scopes) tag.written
         parent := some b.current }]
      (b.addElement tag.rawName tag.written).2 where
  size := (grown_addElement bound _ _).size
  kept i inside := by
    rw [element_addElement bound, if_neg inside.ne]
    by_cases here : i = b.current
    · subst here
      simp [Content.joined, appendChild]
    · rw [if_neg here, if_neg (Ne.symm here), List.append_nil]
  added k e found := by
    cases k with
    | zero =>
      rw [Nat.add_zero, element_addElement bound, if_pos rfl]
      exact Option.some.inj found
    | succ k => cases found

end Laid

/-- Content is laid out behind what there is. -/
theorem laid_add {content : Content} {b : Builder} (bound : b.current < b.document.size)
    (inside : b.opened = [] → content.roots = content) :
    Laid b.document b.current (content.children b.document.size)
      (content.elements b.scopes b.current b.document.size) (b.add content).document := by
  induction content generalizing b with
  | nil => exact .refl _ _
  | text characters rest ih =>
    rcases opened : b.opened with _ | ⟨element, stack⟩
    · exact absurd (inside opened) rest.roots_ne_text
    · have place : element.id = b.current := (current_of_opened opened).symm
      have added : b.addText characters =
          { b with document := addChild b.document b.current (.text characters) } := by
        simp [addText, opened, place]
      have size := size_addChild b.document b.current (.text characters)
      have onward := @ih { b with document := addChild b.document b.current (.text characters) }
        (size.symm ▸ bound) (fun none => by rw [opened] at none; cases none)
      rw [Builder.add, added]
      refine (laid_text b.document b.current characters).trans bound ?_
      rw [← size]
      exact onward
  | element tag within rest ihWithin ih =>
    let opened : Builder :=
      { document := (b.addElement tag.rawName tag.written).2,
        opened := (b.addElement tag.rawName tag.written).1 :: b.opened }
    have first := laid_element bound tag
    have size : opened.document.size = b.document.size + 1 := first.size
    have second := @ihWithin opened (by rw [size]; exact Nat.lt_succ_self _)
      fun none => absurd none (List.cons_ne_nil _ _)
    rw [size] at second
    have whole := first.within rfl second
    have size' : (opened.add within).document.size = b.document.size + 1 + within.size := by
      rw [whole.size, List.length_cons, Content.length_elements]
      omega
    have third := @ih { opened.add within with opened := b.opened }
      (by rw [size']; exact bound.trans_le (by omega))
      (fun none => (Content.element.inj (inside none)).2.2)
    rw [size'] at third
    exact whole.trans bound third

end Builder

/-! ### What a document shows -/

/-- The local part of the name of a tag. -/
def Tag.localName (tag : Tag) : String := String.ofList (splitName tag.rawName).2

/-- The attributes of a tag that are no declarations, by the local parts of their names. -/
def Tag.attributes (tag : Tag) : List (String × String) :=
  (tag.written.filter fun pair => (declaredPrefix? pair.1).isNone).map fun pair =>
    (String.ofList (splitName pair.1).2, pair.2)

/-- The value of the first attribute with a local name. -/
def Tag.attribute? (tag : Tag) (name : String) : Option String :=
  (tag.attributes.find? (·.1 == name)).map (·.2)

theorem attributes_plainAttributes (scopes : List Declarations) (tag : Tag) :
    (plainAttributes scopes tag.written).map (fun a => (a.name.localName, a.value)) =
      tag.attributes := by
  rw [plainAttributes, List.map_map]
  rfl

namespace Document

/-- The elements of some numbers are, one by one, those of content. -/
inductive Shows (d : Document) : List Nat → Content → Prop
  | nil : Shows d [] .nil
  | text {ids characters rest} (onward : Shows d ids rest) : Shows d ids (.text characters rest)
  | element {id ids tag within rest} (name : (d.element id).name.localName = tag.localName)
      (attributes : (d.element id).attributes.map (fun a => (a.name.localName, a.value)) =
        tag.attributes)
      (characters : d.textContent id = within.characters)
      (inside : Shows d (d.childElements id) within) (onward : Shows d ids rest) :
      Shows d (id :: ids) (.element tag within rest)

variable {d : Document} {content : Content} {text : String}

/-- A document with the elements of content shows it, with its text. -/
theorem InOrder.shows (ordered : d.InOrder) {scopes : List Declarations} {parent next : Nat}
    (found : ∀ k e, (content.elements scopes parent next)[k]? = some e →
      d.element (next + k) = e) :
    d.Shows ((content.children next).filterMap Builder.elementId?) content ∧
      String.join ((content.children next).map d.childText) = content.characters := by
  induction content generalizing scopes parent next with
  | nil => exact ⟨.nil, rfl⟩
  | text characters rest ih =>
    obtain ⟨shows, join⟩ := ih found
    refine ⟨.text shows, ?_⟩
    rw [Content.children, List.map_cons, String.join_cons, join]
    rfl
  | element tag within rest ihWithin ih =>
    have first := found 0 _ rfl
    rw [Nat.add_zero] at first
    obtain ⟨inside, characters⟩ := @ihWithin (declarationsOf tag.written :: scopes) next (next + 1)
      fun k e within => by
        have := (List.getElem?_eq_some_iff.mp within).1
        have place := found (k + 1) e (by
          rw [Content.elements, List.getElem?_cons_succ, List.getElem?_append_left this, within])
        rwa [← Nat.add_assoc, Nat.add_right_comm] at place
    obtain ⟨onward, join⟩ := @ih scopes parent (next + 1 + within.size) fun k e behind => by
        have place := found (within.size + k + 1) e (by
          rw [Content.elements, List.getElem?_cons_succ,
            List.getElem?_append_right (by rw [Content.length_elements]; omega),
            Content.length_elements, Nat.add_sub_cancel_left, behind])
        rwa [show next + (within.size + k + 1) = next + 1 + within.size + k by omega] at place
    have children : d.childElements next =
        (within.children (next + 1)).filterMap Builder.elementId? := by
      rw [Builder.childElements_eq, first, Content.filterMap_joined]
      rfl
    have textContent : d.textContent next = within.characters := by
      rw [ordered.textContent_eq, first, Content.join_joined, characters]
      rfl
    refine ⟨.element (by rw [first]; rfl) ?_ textContent (by rwa [children]) onward, ?_⟩
    · rw [first]
      exact attributes_plainAttributes _ tag
    · rw [Content.children, List.map_cons, String.join_cons, join]
      exact congrArg (· ++ rest.characters) textContent

end Document

/-- A text spells content behind a mark of byte order, if there is one. -/
def Content.IsSpelt (content : Content) (text : String) : Prop :=
  ∃ cs, content.Spells cs ∧
    (text.toList = '\uFEFF' :: cs ∨ text.toList = cs ∧ cs.head? ≠ some '\uFEFF')

theorem eventsOf_of_spelt {content : Content} {text : String} (spelt : content.IsSpelt text) :
    ∃ cs, content.Spells cs ∧ documentEvents text = eventsOf cs := by
  obtain ⟨cs, spells, marked | ⟨plain, other⟩⟩ := spelt
  · refine ⟨cs, spells, ?_⟩
    rw [documentEvents, marked]
    rfl
  · refine ⟨cs, spells, ?_⟩
    rw [documentEvents, plain]
    split
    next => exact absurd rfl other
    next => rfl

theorem Builder.add_roots {b : Builder} (outside : b.opened = []) (content : Content) :
    b.add content = b.add content.roots := by
  induction content generalizing b with
  | nil => rfl
  | text characters rest ih =>
    have silent : b.addText characters = b := by simp [addText, outside]
    rw [add, silent, Content.roots, ih outside]
  | element tag within rest _ ih =>
    rw [add, Content.roots, add]
    exact ih outside

/-- A text that spells content with an element is read, and the document shows that content. -/
theorem parse_of_spelt {content : Content} {text : String} (spelt : content.IsSpelt text)
    {tag : Tag} {within rest : Content} (rooted : content.roots = .element tag within rest) :
    ∃ d, Document.parse text = .ok d ∧ d.InOrder ∧
      d.Shows (d.childElements documentId) content.roots := by
  obtain ⟨cs, spells, events⟩ := eventsOf_of_spelt spelt
  have ran : (documentEvents text).foldlM Builder.step {} =
      .ok (Builder.add {} content.roots) := by
    have whole := Builder.foldlM_spells spells {} []
    rw [List.append_nil, Builder.add_roots rfl, ← events, eventsOf] at whole
    exact whole
  have ordered := (Builder.inOrder_start.run ran).document
  have laid := @Builder.laid_add content.roots {} Nat.one_pos fun _ => content.roots_roots
  have outside : documentId = ({} : Builder).current := rfl
  have children : (Builder.add {} content.roots).document.childElements documentId =
      (content.roots.children 1).filterMap Builder.elementId? := by
    rw [Builder.childElements_eq, laid.kept documentId Nat.one_pos, if_pos outside,
      Content.filterMap_joined]
    rfl
  have root : (Builder.add {} content.roots).document.root?.isSome := by
    rw [Document.root?, children, rooted]
    rfl
  refine ⟨_, Document.ofEvents_eq_ok_iff.mpr ⟨_, ran, ?_, rfl, root⟩, ordered, ?_⟩
  · rw [Builder.opened_add]
  · rw [children]
    exact (ordered.shows laid.added).1

end CatalogGraph.Xml
