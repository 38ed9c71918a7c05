import CatalogGraph.Proofs.DocumentSteps
import Mathlib.Data.List.Nodup

/-!
The text of a document: each piece of character data goes to the innermost open element, and the
text of an element is what stands between its tags, piece by piece in the order of the document.
-/
namespace CatalogGraph.Xml
open Relation (ReflTransGen)

/-- The character data of an event under the number of the innermost open element. -/
def chunkOf (opened : List Nat) (e : Event) : List (Nat × String) :=
  match opened, e.characters? with
  | id :: _, some content => [(id, content)]
  | _, _ => []

theorem chunkOf_eq_nil (opened : List Nat) {e : Event} (silent : e.characters? = none) :
    chunkOf opened e = [] := by
  unfold chunkOf
  rw [silent]
  cases opened <;> rfl

/-- The character data of events in order, each piece under the number of the element in which it
stands; the elements `opened` are open at first, and the next one gets the number `next`. -/
def chunksFrom (opened : List Nat) (next : Nat) : List Event → List (Nat × String)
  | [] => []
  | .opening _ _ :: rest => chunksFrom (next :: opened) (next + 1) rest
  | .empty _ _ :: rest => chunksFrom opened (next + 1) rest
  | .closing _ :: rest => chunksFrom opened.tail next rest
  | e :: rest => chunkOf opened e ++ chunksFrom opened next rest

/-- The character data within the elements of a document, in order and by element. -/
def chunks (text : String) : List (Nat × String) := chunksFrom [] 1 (documentEvents text)

namespace Document

/-- A piece of text, or the text of an element, as it stands in the text around it. -/
def childText (d : Document) : Child → String
  | .text content => content
  | .element child => d.textContent child

/-- The last child of each element around an element, or of the element itself, is the one in which
the element `p` stands. -/
def LastWithin (d : Document) (p : Nat) : Prop :=
  ∀ ⦃c q⦄, d.Within p c → d.parent? c = some q →
    (d.element q).children.getLast? = some (.element c)

/-- Behind the last element there is none with children. -/
theorem children_size (d : Document) : (d.element d.size).children = [] := by
  simp [element, size, Array.getD_eq_getD_getElem?]

namespace InOrder
variable {d : Document} (ordered : d.InOrder)
include ordered

theorem parent?_of_mem {id child : Nat} (mem : .element child ∈ (d.element id).children) :
    d.parent? child = some id := by
  apply ordered.mem_childElements_iff.mp
  rw [Builder.childElements_eq]
  exact List.mem_filterMap.mpr ⟨_, mem, rfl⟩

theorem textContent_eq (id : Nat) :
    d.textContent id = String.join ((d.element id).children.map d.childText) := by
  rw [textContent]
  congr 1
  apply List.map_congr_left
  intro child mem
  cases child with
  | text content => rfl
  | element child =>
    have found := ordered.parent?_of_mem mem
    have bounds : id < child ∧ child < d.size :=
      ⟨ordered.parent_lt found, lt_size_of_parent? found⟩
    simp [childText, bounds]

theorem descendantsOrSelf_eq (id : Nat) :
    d.descendantsOrSelf id = id :: (d.childElements id).flatMap d.descendantsOrSelf := by
  rw [descendantsOrSelf]
  congr 1
  apply List.flatMap_congr
  intro child mem
  have found := ordered.mem_childElements_iff.mp mem
  have bounds : id < child ∧ child < d.size :=
    ⟨ordered.parent_lt found, lt_size_of_parent? found⟩
  simp [bounds]

/-- Of the children of an element only one has a given element within it. -/
theorem not_within_of_mem_front {id last p : Nat} {front : List Child}
    (children : (d.element id).children = front ++ [.element last]) (within : d.Within p last)
    {child : Nat} (mem : .element child ∈ front) : ¬ d.Within p child := by
  intro other
  have sorted := ordered.childElements_sorted id
  rw [Builder.childElements_eq, children, List.filterMap_append] at sorted
  have before : child < last := (List.pairwise_append.mp sorted).2.2 child
    (List.mem_filterMap.mpr ⟨_, mem, rfl⟩) last (by simp [Builder.elementId?])
  have found : d.parent? child = some id := ordered.parent?_of_mem (by simp [children, mem])
  have found' : d.parent? last = some id := ordered.parent?_of_mem (by simp [children])
  exact (ordered.lt_of_siblings found found' before other within).false

end InOrder
end Document

namespace Builder

theorem join_appendChild (d : Document) (content : String) (children : List Child) :
    String.join ((appendChild (.text content) children).map d.childText) =
      String.join (children.map d.childText) ++ content := by
  unfold appendChild
  split
  next more before same last =>
    cases same
    obtain ⟨front, rfl⟩ := List.getLast?_eq_some_iff.mp last
    simp [Document.childText, String.append_assoc]
  next => simp [Document.childText]

/-- Text that is added to an element behind its other children goes to the end of the text of each
element around it, and to no other element. -/
theorem textContent_addChild {d : Document} (ordered : d.InOrder) {p : Nat} (bound : p < d.size)
    (last : d.LastWithin p) (content : String) (id : Nat) :
    (addChild d p (.text content)).textContent id =
      d.textContent id ++ if p ∈ d.descendantsOrSelf id then content else "" := by
  have alike : Alike d (addChild d p (.text content)) :=
    ⟨size_addChild _ _ _, funext fun i => parent?_addChild _ _ _ i, funext fun i => by
      rw [childElements_addChild bound]; simp [elementId?]⟩
  have ordered' := alike.inOrder ordered
  induction hn : d.size - id using Nat.strong_induction_on generalizing id with
  | _ n ih =>
    have elsewhere {child : Nat} (mem : .element child ∈ (d.element id).children)
        (outside : ¬ d.Within p child) :
        (addChild d p (.text content)).textContent child = d.textContent child := by
      have found := ordered.parent?_of_mem mem
      have := ordered.parent_lt found
      have := Document.lt_size_of_parent? found
      rw [ih _ (by omega) child rfl, if_neg (mt ordered.mem_descendantsOrSelf_iff.mp outside),
        String.append_empty]
    have kept {children : List Child} (sub : ∀ child ∈ children, child ∈ (d.element id).children)
        (outside : ∀ child, .element child ∈ children → ¬ d.Within p child) :
        children.map (addChild d p (.text content)).childText = children.map d.childText := by
      apply List.map_congr_left
      intro child mem
      cases child with
      | text => rfl
      | element child => exact elsewhere (sub _ mem) (outside child mem)
    rw [ordered'.textContent_eq, ordered.textContent_eq, element_addChild]
    by_cases here : p = id
    · subst here
      have outside : ∀ child, .element child ∈ (d.element p).children → ¬ d.Within p child := by
        intro child mem within
        have := ordered.parent_lt (ordered.parent?_of_mem mem)
        have := ordered.within_le within
        omega
      rw [if_pos ⟨rfl, bound⟩, if_pos (ordered.mem_descendantsOrSelf_iff.mpr .refl),
        join_appendChild, kept (fun _ mem => mem) outside]
    · rw [if_neg (fun h => here h.1)]
      by_cases within : d.Within p id
      · rw [if_pos (ordered.mem_descendantsOrSelf_iff.mpr within)]
        obtain same | ⟨child, inside, found⟩ := ReflTransGen.cases_tail within
        · exact absurd same.symm here
        · obtain ⟨front, children⟩ := List.getLast?_eq_some_iff.mp (last inside found)
          have outside (other : Nat) (mem : .element other ∈ front) : ¬ d.Within p other :=
            ordered.not_within_of_mem_front children inside mem
          have := ordered.parent_lt found
          have := Document.lt_size_of_parent? found
          have inner := ih _ (by omega) child rfl
          rw [if_pos (ordered.mem_descendantsOrSelf_iff.mpr inside)] at inner
          rw [children, List.map_append, kept (fun _ mem => by simp [children, mem]) outside]
          simp [Document.childText, inner, String.append_assoc]
      · have outside (child : Nat) (mem : .element child ∈ (d.element id).children) :
            ¬ d.Within p child :=
          fun inside => within (inside.tail (ordered.parent?_of_mem mem))
        rw [if_neg (mt ordered.mem_descendantsOrSelf_iff.mp within), String.append_empty,
          kept (fun _ mem => mem) outside]

section Steps
variable {b : Builder} (ordered : b.InOrder)
include ordered

/-- A new element has no text. -/
theorem InOrder.textContent_addElement (rawName : List Char)
    (written : List (List Char × String)) (id : Nat) :
    (b.addElement rawName written).2.textContent id = b.document.textContent id := by
  have bound := ordered.current_lt
  have grown := grown_addElement bound rawName written
  have ordered' := grown.inOrder ordered.document ordered.last
  induction hn : b.document.size + 1 - id using Nat.strong_induction_on generalizing id with
  | _ n ih =>
    rw [ordered'.textContent_eq, ordered.document.textContent_eq, element_addElement bound]
    by_cases last : id = b.document.size
    · rw [if_pos last, last, b.document.children_size]
      rfl
    · have kept : (b.document.element id).children.map (b.addElement rawName written).2.childText =
          (b.document.element id).children.map b.document.childText := by
        apply List.map_congr_left
        intro child mem
        cases child with
        | text => rfl
        | element child =>
          have found := ordered.document.parent?_of_mem mem
          have := ordered.document.parent_lt found
          have := Document.lt_size_of_parent? found
          exact ih _ (by omega) child rfl
      rw [if_neg last, List.map_append, String.join_append, kept]
      by_cases here : b.current = id
      · have := ih _ (by omega) b.document.size rfl
        have none : b.document.textContent b.document.size = "" := by
          rw [ordered.document.textContent_eq, b.document.children_size]
          rfl
        simp [here, Document.childText, this, none]
      · simp [here]

theorem InOrder.lastWithin_add (last : b.document.LastWithin b.current) (rawName : List Char)
    (written : List (List Char × String)) :
    (b.addElement rawName written).2.LastWithin b.current := by
  intro c q within found
  have bound := ordered.current_lt
  have grown := grown_addElement bound rawName written
  have within : b.document.Within b.current c :=
    (grown.extends.within_iff ordered.document bound).mp within
  have := ordered.document.within_le within
  rw [grown.parent?, if_neg (by omega)] at found
  have := ordered.document.parent_lt found
  have kept := last within found
  rw [element_addElement bound, if_neg (by omega), if_neg (by omega), List.append_nil]
  exact kept

/-- The new element is the last child of the one that it stands in. -/
theorem InOrder.lastWithin_open (last : b.document.LastWithin b.current) (rawName : List Char)
    (written : List (List Char × String)) :
    (b.addElement rawName written).2.LastWithin b.document.size := by
  intro c q within found
  have bound := ordered.current_lt
  have grown := grown_addElement bound rawName written
  rcases ReflTransGen.cases_head within with rfl | ⟨p, above, onward⟩
  · obtain rfl : b.current = q := Option.some.inj (grown.last.symm.trans found)
    rw [element_addElement bound, if_neg bound.ne, if_pos rfl, List.getLast?_concat]
  · obtain rfl : b.current = p := Option.some.inj (grown.last.symm.trans above)
    exact ordered.lastWithin_add last rawName written onward found

theorem InOrder.lastWithin_addText (last : b.document.LastWithin b.current) (content : String) :
    (b.addText content).document.LastWithin b.current := by
  intro c q within found
  have bound := ordered.current_lt
  have alike := alike_addText bound content
  rw [alike.within_eq] at within
  rw [alike.parent?] at found
  have := ordered.document.within_le within
  have := ordered.document.parent_lt found
  have kept := last within found
  unfold Builder.addText
  split
  next => exact kept
  next element rest opened =>
    have inner := current_of_opened opened
    rw [element_addChild, if_neg (by omega)]
    exact kept

end Steps

/-- A document under construction in which the open elements are the last ones of the elements
around them, so that new text stands behind all text before it. -/
structure Growing (b : Builder) : Prop where
  ordered : b.InOrder
  last : b.document.LastWithin b.current

theorem growing_start : Growing {} where
  ordered := inOrder_start
  last := by
    intro c q _ found
    rcases c with _ | c <;> cases found

theorem Growing.stepped {b b' : Builder} {e : Event} (growing : b.Growing)
    (stepped : b.Stepped e b') :
    b'.Growing where
  ordered := growing.ordered.step (step_eq_ok_iff.mpr stepped)
  last := by
    cases stepped with
    | opening read => exact growing.ordered.lastWithin_open growing.last _ _
    | empty read => exact growing.ordered.lastWithin_add growing.last _ _
    | @closing element rest opened =>
      intro c q within found
      have nested := growing.ordered.nested
      obtain ⟨outer, left⟩ := exists_stack_eq { b with opened := rest }
      have whole : b.stack = element.id :: stack { b with opened := rest } := by
        simp [stack, opened]
      rw [whole, left, List.isChain_cons_cons, ← current_of_opened opened] at nested
      exact growing.last (within.head nested.1) found
    | @characters e content read =>
      have same : (b.addText content).current = b.current := by
        rw [Builder.current, opened_addText]
        rfl
      exact same ▸ growing.ordered.lastWithin_addText growing.last content
    | skipped => exact growing.last

theorem chunksFrom_cons {b b' : Builder} {e : Event} (growing : b.Growing)
    (stepped : b.Stepped e b') (rest : List Event) :
    chunksFrom (b.opened.map (·.id)) b.document.size (e :: rest) =
      chunkOf (b.opened.map (·.id)) e ++
        chunksFrom (b'.opened.map (·.id)) b'.document.size rest := by
  have bound := growing.ordered.current_lt
  cases stepped with
  | opening read =>
    rw [chunkOf_eq_nil _ rfl, (grown_addElement bound _ _).size]
    rfl
  | empty read =>
    rw [chunkOf_eq_nil _ rfl, (grown_addElement bound _ _).size]
    rfl
  | closing opened =>
    rw [chunkOf_eq_nil _ rfl, opened]
    rfl
  | @characters e content read =>
    rw [opened_addText, (alike_addText bound content).size]
    cases e with
    | text raw => rfl
    | cdata content => rfl
    | _ => cases read
  | skipped => rfl

/-- The pieces of text of some elements, put together in order. -/
def textWithin (ids : List Nat) (chunks : List (Nat × String)) : String :=
  String.join ((chunks.filter fun chunk => chunk.1 ∈ ids).map (·.2))

theorem textWithin_append (ids : List Nat) (first second : List (Nat × String)) :
    textWithin ids (first ++ second) = textWithin ids first ++ textWithin ids second := by
  simp [textWithin]

theorem textWithin_chunkOf (ids opened : List Nat) {e : Event} {content : String}
    (read : e.characters? = some content) :
    textWithin ids (chunkOf opened e) =
      match opened with
      | [] => ""
      | id :: _ => if id ∈ ids then content else "" := by
  unfold chunkOf
  rw [read]
  cases opened with
  | nil => rfl
  | cons id rest => by_cases mem : id ∈ ids <;> simp [textWithin, mem]

/-- The text of a child that is a text. -/
def text? : Child → Option String
  | .text content => some content
  | .element _ => none

theorem directText_eq (d : Document) (id : Nat) :
    d.directText id = String.join ((d.element id).children.filterMap text?) := rfl

theorem directText_addChild {d : Document} {p : Nat} (bound : p < d.size) (content : String)
    (id : Nat) : (addChild d p (.text content)).directText id =
      d.directText id ++ if p = id then content else "" := by
  rw [directText_eq, directText_eq, element_addChild]
  by_cases here : p = id
  · subst here
    rw [if_pos ⟨rfl, bound⟩, if_pos rfl]
    generalize (d.element p).children = children
    simp only [appendChild]
    split
    next more before same last =>
      cases same
      obtain ⟨front, rfl⟩ := List.getLast?_eq_some_iff.mp last
      simp [text?, String.append_assoc]
    next => simp [text?]
  · rw [if_neg (fun h => here h.1), if_neg here, String.append_empty]

theorem directText_addElement {b : Builder} (bound : b.current < b.document.size)
    (rawName : List Char) (written : List (List Char × String)) (id : Nat) :
    (b.addElement rawName written).2.directText id = b.document.directText id := by
  rw [directText_eq, directText_eq, element_addElement bound]
  by_cases last : id = b.document.size
  · rw [if_pos last, last, b.document.children_size]
  · rw [if_neg last]
    by_cases here : b.current = id <;> simp [here, List.filterMap_cons, text?]

/-- A text that new elements leave as it is and to whose end the character data of some elements is
added takes up the character data of an event that stands in one of these elements. -/
theorem Stepped.text_eq {b b' : Builder} {e : Event} (stepped : b.Stepped e b')
    (text : Document → String) (ids : List Nat)
    (elements : ∀ rawName written, text (b.addElement rawName written).2 = text b.document)
    (characters : ∀ content, text (addChild b.document b.current (.text content)) =
      text b.document ++ if b.current ∈ ids then content else "") :
    text b'.document = text b.document ++
      textWithin ids (chunkOf (b.opened.map (·.id)) e) := by
  have nothing : textWithin ids [] = "" := rfl
  cases stepped with
  | opening read => rw [chunkOf_eq_nil _ rfl, nothing, String.append_empty, elements]
  | empty read => rw [chunkOf_eq_nil _ rfl, nothing, String.append_empty, elements]
  | closing opened => rw [chunkOf_eq_nil _ rfl, nothing, String.append_empty]
  | @characters e content read =>
    rw [textWithin_chunkOf _ _ read]
    cases opened : b.opened with
    | nil => simp [addText, opened]
    | cons element rest =>
      have added := characters content
      rw [current_of_opened opened] at added
      simpa [addText, opened] using added
  | skipped => rw [chunkOf_eq_nil _ rfl, nothing, String.append_empty]

theorem Growing.run {b b' : Builder} {events : List Event} (growing : b.Growing)
    (ran : events.foldlM Builder.step b = .ok b') :
    b'.Growing ∧ Extends b.document b'.document ∧ ∀ id,
      b'.document.textContent id = b.document.textContent id ++
          textWithin (b'.document.descendantsOrSelf id)
            (chunksFrom (b.opened.map (·.id)) b.document.size events) ∧
        b'.document.directText id = b.document.directText id ++
          textWithin [id] (chunksFrom (b.opened.map (·.id)) b.document.size events) := by
  induction events generalizing b with
  | nil =>
    cases ran
    exact ⟨growing, .refl _, fun id => by simp [chunksFrom, textWithin]⟩
  | cons e rest ih =>
    obtain ⟨next, stepped, ran⟩ := foldlM_cons_eq_ok_iff.mp ran
    obtain ⟨growing', more, texts⟩ := ih (growing.stepped stepped) ran
    have whole := (stepped.extends growing.ordered).trans more
    refine ⟨growing', whole, fun id => ?_⟩
    obtain ⟨content, direct⟩ := texts id
    have bound := growing.ordered.current_lt
    have around : b.current ∈ b'.document.descendantsOrSelf id ↔
        b.current ∈ b.document.descendantsOrSelf id := by
      rw [growing'.ordered.document.mem_descendantsOrSelf_iff,
        growing.ordered.document.mem_descendantsOrSelf_iff,
        whole.within_iff growing.ordered.document bound]
    have contentStep := stepped.text_eq (·.textContent id) (b'.document.descendantsOrSelf id)
      (fun _ _ => growing.ordered.textContent_addElement _ _ id)
      (fun added => by
        simp only [around]
        exact textContent_addChild growing.ordered.document bound growing.last added id)
    have directStep := stepped.text_eq (·.directText id) [id]
      (fun _ _ => directText_addElement bound _ _ id)
      (fun added => by simpa using directText_addChild bound added id)
    rw [content, direct, contentStep, directStep, chunksFrom_cons growing stepped,
      textWithin_append, textWithin_append, String.append_assoc, String.append_assoc]
    exact ⟨rfl, rfl⟩

/-- One of two neighbours among the children of an element is an element. -/
def Apart : Child → Child → Prop
  | .text _, .text _ => False
  | _, _ => True

theorem isChain_appendChild {children : List Child} (apart : children.IsChain Apart)
    (child : Child) :
    (appendChild child children).IsChain Apart := by
  have behind (front : List Child) (last : Child) (chain : front.IsChain Apart)
      (next : ∀ x ∈ front.getLast?, Apart x last) : (front ++ [last]).IsChain Apart := by
    rw [List.isChain_append]
    refine ⟨chain, List.isChain_singleton _, fun x hx y hy => ?_⟩
    obtain rfl : last = y := by simpa using hy
    exact next x hx
  cases child with
  | element id =>
    refine behind children _ apart fun x _ => ?_
    cases x <;> trivial
  | text more =>
    simp only [appendChild]
    split
    next _ before same last =>
      cases same
      obtain ⟨front, rfl⟩ := List.getLast?_eq_some_iff.mp last
      rw [List.isChain_append] at apart
      rw [List.dropLast_concat]
      refine behind front _ apart.1 fun x hx => ?_
      have neighbours := apart.2.2 x hx (.text before) (by simp)
      cases x with
      | text => exact neighbours
      | element => trivial
    next other =>
      refine behind children _ apart fun x hx => ?_
      cases x with
      | text before => exact (other more before rfl hx).elim
      | element => trivial

/-- No element has two texts next to each other, and the document itself has no text, no attributes
and no name. -/
structure Tidy (d : Document) : Prop where
  apart : ∀ id, (d.element id).children.IsChain Apart
  name : (d.element documentId).name = {}
  attributes : (d.element documentId).attributes = []
  children : ∀ content, .text content ∉ (d.element documentId).children

theorem tidy_start : Tidy {} where
  apart id := by rcases id with _ | id <;> exact .nil
  name := rfl
  attributes := rfl
  children := nofun

theorem Growing.id_ne {b : Builder} (growing : b.Growing) {element : Open} {rest : List Open}
    (opened : b.opened = element :: rest) : element.id ≠ documentId := by
  intro same
  have nested := growing.ordered.nested
  obtain ⟨outer, left⟩ := exists_stack_eq { b with opened := rest }
  have whole : b.stack = element.id :: stack { b with opened := rest } := by simp [stack, opened]
  rw [whole, left, List.isChain_cons_cons, same] at nested
  have root := growing.ordered.document.root
  simp [root] at nested

theorem Growing.tidy_stepped {b b' : Builder} {e : Event} (growing : b.Growing)
    (stepped : b.Stepped e b') (tidy : Tidy b.document) : Tidy b'.document := by
  have bound := growing.ordered.current_lt
  have nonempty := growing.ordered.document.nonempty
  have added (rawName : List Char) (written : List (List Char × String)) :
      Tidy (b.addElement rawName written).2 := by
    have first : documentId ≠ b.document.size := nonempty.ne
    have document := element_addElement bound rawName written documentId
    rw [if_neg first] at document
    refine ⟨fun id => ?_, by rw [document]; exact tidy.name,
      by rw [document]; exact tidy.attributes, fun content mem => ?_⟩
    · rw [element_addElement bound]
      split
      next => exact .nil
      next =>
        have same : (b.document.element id).children ++
            (if b.current = id then [Child.element b.document.size] else []) =
            if b.current = id then
              appendChild (.element b.document.size) (b.document.element id).children
            else (b.document.element id).children := by
          split <;> simp [appendChild]
        simp only [same]
        split
        next => exact isChain_appendChild (tidy.apart id) _
        next => exact tidy.apart id
    · rw [document] at mem
      rcases List.mem_append.mp mem with mem | mem
      · exact tidy.children content mem
      · split at mem <;> simp at mem
  cases stepped with
  | opening read => exact added _ _
  | empty read => exact added _ _
  | closing opened => exact tidy
  | @characters e content read =>
    unfold addText
    split
    next => exact tidy
    next element rest opened =>
      have other := growing.id_ne opened
      have document : (addChild b.document element.id (.text content)).element documentId =
          b.document.element documentId := by
        rw [element_addChild, if_neg (fun h => other h.1)]
      refine ⟨fun id => ?_, document ▸ tidy.name, document ▸ tidy.attributes,
        document ▸ tidy.children⟩
      rw [element_addChild]
      split
      next => exact isChain_appendChild (tidy.apart id) _
      next => exact tidy.apart id
  | skipped => exact tidy

theorem Growing.tidy_run {b b' : Builder} {events : List Event} (growing : b.Growing)
    (ran : events.foldlM Builder.step b = .ok b') (tidy : Tidy b.document) : Tidy b'.document := by
  induction events generalizing b with
  | nil => cases ran; exact tidy
  | cons e rest ih =>
    obtain ⟨next, stepped, ran⟩ := foldlM_cons_eq_ok_iff.mp ran
    exact ih (growing.stepped stepped) ran (growing.tidy_stepped stepped tidy)

end Builder

namespace Document

/-- A sorted list without gaps is a block of numbers. -/
theorem eq_range'_of_sorted {first : Nat} {l : List Nat} (start : l.head? = some first)
    (sorted : l.Pairwise (· < ·))
    (whole : ∀ {i last}, first ≤ i → last ∈ l → i ≤ last → i ∈ l) :
    l = List.range' first l.length := by
  induction l generalizing first with
  | nil => cases start
  | cons a rest ih =>
    obtain rfl : a = first := by simpa using start
    obtain ⟨above, sorted⟩ := List.pairwise_cons.mp sorted
    cases rest with
    | nil => rfl
    | cons b more =>
      have before : a < b := above b (by simp)
      have next : a + 1 ∈ b :: more := by
        have mem := whole (Nat.le_succ a) (by simp : b ∈ a :: b :: more) before
        simpa using mem
      have least : b ≤ a + 1 := by
        rcases List.mem_cons.mp next with same | mem
        · exact same.ge
        · exact ((List.pairwise_cons.mp sorted).1 _ mem).le
      have here : b = a + 1 := by omega
      have onward {i last : Nat} (low : a + 1 ≤ i) (mem : last ∈ b :: more) (high : i ≤ last) :
          i ∈ b :: more := by
        have mem := whole (Nat.le_of_lt low) (List.mem_cons_of_mem a mem) high
        have other : i ≠ a := by omega
        simpa [other] using mem
      have shorter : b :: more = List.range' (a + 1) (b :: more).length :=
        ih (by simp [here]) sorted onward
      rw [List.length_cons, List.range'_succ, ← shorter]

/-- Elements are visited from a stack: the first one is taken off, and its children are put in front
of the others. -/
inductive Visits (d : Document) : List Nat → List Nat → Prop
  | done : Visits d [] []
  | visit {id : Nat} {rest order : List Nat}
      (onward : Visits d (d.childElements id ++ rest) order) :
      Visits d (id :: rest) (id :: order)

namespace InOrder
variable {d : Document} (ordered : d.InOrder)
include ordered

theorem visits_stack (stack : List Nat) : d.Visits stack (stack.flatMap d.descendantsOrSelf) := by
  induction hn : (stack.flatMap d.descendantsOrSelf).length using Nat.strong_induction_on
      generalizing stack with
  | _ n ih =>
    cases stack with
    | nil => exact .done
    | cons id rest =>
      have whole : (id :: rest).flatMap d.descendantsOrSelf =
          id :: (d.childElements id ++ rest).flatMap d.descendantsOrSelf := by
        rw [List.flatMap_cons, ordered.descendantsOrSelf_eq, List.flatMap_append, List.cons_append]
      rw [whole, List.length_cons] at hn
      rw [whole]
      exact .visit (ih _ (by omega) _ rfl)

theorem visits_descendantsOrSelf (id : Nat) : d.Visits [id] (d.descendantsOrSelf id) := by
  simpa using ordered.visits_stack [id]

theorem within_document {id : Nat} (bound : id < d.size) : d.Within id documentId := by
  induction id using Nat.strong_induction_on with
  | _ id ih =>
    cases id with
    | zero => exact .refl
    | succ id =>
      obtain ⟨p, found, _⟩ := ordered.next bound
      have below := ordered.parent_lt found
      exact .head found (ih p below (by omega))

theorem descendantsOrSelf_eq_range' (id : Nat) :
    d.descendantsOrSelf id = List.range' id (d.descendantsOrSelf id).length := by
  have rest := ordered.descendantsOrSelf_eq id
  refine eq_range'_of_sorted (by rw [rest]; rfl) (ordered.descendantsOrSelf_sorted id) ?_
  intro i inner above mem below
  rw [ordered.mem_descendantsOrSelf_iff] at mem ⊢
  exact ordered.within_of_between mem above below

theorem descendantsOrSelf_document : d.descendantsOrSelf documentId = List.range d.size := by
  have block := ordered.descendantsOrSelf_eq_range' documentId
  have mem (id : Nat) : id < (d.descendantsOrSelf documentId).length ↔ id < d.size := by
    have exactly : id ∈ d.descendantsOrSelf documentId ↔
        id < (d.descendantsOrSelf documentId).length := by
      rw [block]
      simp [documentId]
    rw [← exactly, ordered.mem_descendantsOrSelf_iff]
    constructor
    · intro within
      rcases ReflTransGen.cases_head within with rfl | ⟨p, found, _⟩
      · exact ordered.nonempty
      · exact lt_size_of_parent? found
    · exact ordered.within_document
  have length : (d.descendantsOrSelf documentId).length = d.size := by
    have := (mem d.size).not.mpr (lt_irrefl _)
    have := (mem (d.descendantsOrSelf documentId).length).not.mp (lt_irrefl _)
    omega
  rw [block, length, documentId, ← List.range_eq_range']

theorem count_children {p id : Nat} (found : d.parent? id = some p) :
    (d.element p).children.count (.element id) = 1 := by
  have counted (children : List Child) : children.count (.element id) =
      (children.filterMap Builder.elementId?).count id := by
    induction children with
    | nil => rfl
    | cons child rest ih =>
      cases child with
      | text content => simp [List.filterMap_cons, Builder.elementId?, ih]
      | element other => simp [Builder.elementId?, List.count_cons, ih]
  have nodup : (d.childElements p).Nodup := (ordered.childElements_sorted p).imp Nat.ne_of_lt
  rw [counted, ← Builder.childElements_eq]
  exact List.count_eq_one_of_mem nodup (ordered.mem_childElements_iff.mpr found)

end InOrder

/-- The elements of a document that was read form a tree, numbered from the document itself on in
the order of their start tags: each other element has a place among the children of an element
before it, texts do not stand side by side, an element and those within it have a block of numbers,
in which a visit from a stack meets them, and the text of an element is the character data that
stands in its block, in the order of the document. -/
theorem parsed_elements_form_tree {text : String} {d : Document} (parsed : parse text = .ok d) :
    (documentId < d.size ∧ d.parent? documentId = none ∧ (d.element documentId).name = {} ∧
      (d.element documentId).attributes = [] ∧
      ∀ content, .text content ∉ (d.element documentId).children) ∧
    (∀ id, id ≠ documentId → id < d.size →
      ∃ p < id, d.parent? id = some p ∧ (d.element p).children.count (.element id) = 1) ∧
    (∀ id, (d.element id).children.IsChain Builder.Apart) ∧
    d.descendantsOrSelf documentId = List.range d.size ∧
    (∀ id, ∃ n > 0, d.descendantsOrSelf id = List.range' id n ∧
      (∀ inner, inner ∈ d.descendantsOrSelf id ↔ d.Within inner id) ∧
      d.Visits [id] (d.descendantsOrSelf id)) ∧
    ∀ id, d.textContent id = Builder.textWithin (d.descendantsOrSelf id) (chunks text) ∧
      d.directText id = Builder.textWithin [id] (chunks text) := by
  obtain ⟨b, ran, _, rfl, _⟩ := ofEvents_eq_ok_iff.mp parsed
  obtain ⟨growing, _, texts⟩ := Builder.growing_start.run ran
  have tidy := Builder.growing_start.tidy_run ran Builder.tidy_start
  have ordered := growing.ordered.document
  refine ⟨⟨ordered.nonempty, ordered.root, tidy.name, tidy.attributes, tidy.children⟩,
    fun id other bound => ?_, tidy.apart, ordered.descendantsOrSelf_document, fun id => ?_,
    fun id => ?_⟩
  · obtain ⟨before, rfl⟩ := Nat.exists_eq_succ_of_ne_zero other
    obtain ⟨p, found, _⟩ := ordered.next bound
    exact ⟨p, ordered.parent_lt found, found, ordered.count_children found⟩
  · refine ⟨(b.document.descendantsOrSelf id).length, ?_, ordered.descendantsOrSelf_eq_range' id,
      fun inner => ordered.mem_descendantsOrSelf_iff, ordered.visits_descendantsOrSelf id⟩
    rw [ordered.descendantsOrSelf_eq]
    exact Nat.succ_pos _
  · have empty : ({} : Document).textContent id = "" ∧ ({} : Document).directText id = "" := by
      rw [Builder.inOrder_start.document.textContent_eq, Builder.directText_eq]
      rcases id with _ | id <;> exact ⟨rfl, rfl⟩
    obtain ⟨content, direct⟩ := texts id
    rw [empty.1, String.empty_append] at content
    rw [empty.2, String.empty_append] at direct
    exact ⟨content, direct⟩

/-- In an element with mixed content the text of an inner element stands between its own. -/
theorem mixed_content_in_order :
    ∃ d, parse "<a>x<b>y</b><![CDATA[z]]></a>" = .ok d ∧
      d.textContent 1 = "xyz" ∧ d.directText 1 = "xz" ∧
        d.descendantsOrSelf documentId = [0, 1, 2] := by
  have found : (parse "<a>x<b>y</b><![CDATA[z]]></a>").map
      (fun d => (d.size, d.descendantsOrSelf 1)) = .ok (3, [1, 2]) := by decide +kernel
  have pieces : chunks "<a>x<b>y</b><![CDATA[z]]></a>" = [(1, "x"), (2, "y"), (1, "z")] := by
    decide +kernel
  cases parsed : parse "<a>x<b>y</b><![CDATA[z]]></a>" with
  | ok d =>
    rw [parsed] at found
    obtain ⟨size, block⟩ := Prod.mk.inj (Except.ok.inj found)
    obtain ⟨_, _, _, all, _, texts⟩ := parsed_elements_form_tree parsed
    obtain ⟨content, direct⟩ := texts 1
    rw [pieces, block] at content
    rw [pieces] at direct
    exact ⟨d, rfl, content.trans rfl, direct.trans rfl, all.trans (size ▸ rfl)⟩
  | error fault => simp [parsed, Except.map] at found

end Document
end CatalogGraph.Xml
