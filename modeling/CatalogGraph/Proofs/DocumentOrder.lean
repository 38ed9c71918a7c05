import CatalogGraph.Xml.Document
import Mathlib.Data.List.Chain
import Mathlib.Data.List.Pairwise
import Mathlib.Logic.Relation

/-!
Document order: the elements of a document that was read are numbered in the order of their start
tags, so that an element and those within it have a block of numbers.
-/
namespace CatalogGraph.Xml
open Relation (ReflTransGen)

namespace Document

/-- The element lies within another one or is that one. -/
def Within (d : Document) : Nat → Nat → Prop :=
  ReflTransGen fun inner outer => d.parent? inner = some outer

/-- The elements are numbered in the order of their start tags: an element that starts behind
another one is a child of that one or of an element around it. -/
structure InOrder (d : Document) : Prop where
  nonempty : 0 < d.size
  root : d.parent? documentId = none
  parent_lt : ∀ {id p}, d.parent? id = some p → p < id
  next : ∀ {id}, id + 1 < d.size → ∃ p, d.parent? (id + 1) = some p ∧ d.Within id p
  children : ∀ id, d.childElements id =
    (List.range d.size).filter fun child => d.parent? child == some id

theorem parent?_of_le {d : Document} {id : Nat} (beyond : d.size ≤ id) : d.parent? id = none := by
  simp [parent?, element, Array.getD_eq_getD_getElem?, Array.getElem?_eq_none beyond]

theorem lt_size_of_parent? {d : Document} {id p : Nat} (found : d.parent? id = some p) :
    id < d.size := by
  by_contra beyond
  simp [parent?_of_le (Nat.le_of_not_lt beyond)] at found

namespace InOrder
variable {d : Document} (ordered : d.InOrder)
include ordered

theorem mem_childElements_iff {id child : Nat} :
    child ∈ d.childElements id ↔ d.parent? child = some id := by
  rw [ordered.children, List.mem_filter, List.mem_range, beq_iff_eq]
  exact ⟨And.right, fun found => ⟨lt_size_of_parent? found, found⟩⟩

theorem childElements_sorted (id : Nat) : (d.childElements id).Pairwise (· < ·) := by
  rw [ordered.children]
  exact List.pairwise_lt_range.filter _

theorem within_le {inner outer : Nat} (within : d.Within inner outer) : outer ≤ inner := by
  induction within with
  | refl => exact le_rfl
  | tail _ found ih => exact (ordered.parent_lt found).le.trans ih

/-- Between the numbers of an element and of one within it there are only elements within it. -/
theorem within_of_between {inner outer id : Nat} (within : d.Within inner outer)
    (above : outer ≤ id) (below : id ≤ inner) : d.Within id outer := by
  induction inner with
  | zero =>
    obtain rfl : id = 0 := by omega
    exact within
  | succ inner ih =>
    rcases Nat.lt_or_ge inner id with last | before
    · obtain rfl : id = inner + 1 := by omega
      exact within
    · rcases ReflTransGen.cases_head within with rfl | ⟨p, found, onward⟩
      · omega
      · obtain ⟨q, found', inside⟩ := ordered.next (lt_size_of_parent? found)
        obtain rfl : p = q := Option.some.inj (found.symm.trans found')
        exact ih (inside.trans onward) before

/-- Siblings have separate blocks in the order of their numbers. -/
theorem lt_of_siblings {p first second a b : Nat} (hf : d.parent? first = some p)
    (hs : d.parent? second = some p) (before : first < second) (ha : d.Within a first)
    (hb : d.Within b second) : a < b := by
  have start := ordered.within_le hb
  by_contra behind
  have inside := ordered.within_of_between ha before.le (by omega)
  rcases ReflTransGen.cases_head inside with rfl | ⟨q, found, onward⟩
  · omega
  · obtain rfl : p = q := Option.some.inj (hs.symm.trans found)
    have := ordered.within_le onward
    have := ordered.parent_lt hf
    omega

theorem mem_descendantsOrSelf_iff {id inner : Nat} :
    inner ∈ d.descendantsOrSelf id ↔ d.Within inner id := by
  induction hn : d.size - id using Nat.strong_induction_on generalizing id with
  | _ n ih =>
    rw [descendantsOrSelf, List.mem_cons, List.mem_flatMap]
    constructor
    · rintro (rfl | ⟨child, hc, hm⟩)
      · exact .refl
      · have found := ordered.mem_childElements_iff.mp hc
        split at hm
        next bounds => exact ((ih _ (by omega) rfl).mp hm).tail found
        next => cases hm
    · intro within
      rcases ReflTransGen.cases_tail within with same | ⟨child, inside, found⟩
      · exact .inl same.symm
      · have bounds : id < child ∧ child < d.size :=
          ⟨ordered.parent_lt found, lt_size_of_parent? found⟩
        refine .inr ⟨child, ordered.mem_childElements_iff.mpr found, ?_⟩
        rw [dif_pos bounds]
        exact (ih _ (by omega) rfl).mpr inside

theorem descendantsOrSelf_sorted (id : Nat) : (d.descendantsOrSelf id).Pairwise (· < ·) := by
  induction hn : d.size - id using Nat.strong_induction_on generalizing id with
  | _ n ih =>
    have inner {child a : Nat} (hc : child ∈ d.childElements id)
        (hm : a ∈ if _bounds : id < child ∧ child < d.size then d.descendantsOrSelf child else []) :
        d.parent? child = some id ∧ d.Within a child := by
      refine ⟨ordered.mem_childElements_iff.mp hc, ?_⟩
      split at hm
      next => exact ordered.mem_descendantsOrSelf_iff.mp hm
      next => cases hm
    rw [descendantsOrSelf, List.pairwise_cons]
    constructor
    · intro a hm
      obtain ⟨child, hc, hm⟩ := List.mem_flatMap.mp hm
      obtain ⟨found, within⟩ := inner hc hm
      exact (ordered.parent_lt found).trans_le (ordered.within_le within)
    · rw [List.pairwise_flatMap]
      constructor
      · intro child _
        split
        next bounds => exact ih _ (by omega) _ rfl
        next => exact .nil
      · have siblings := ordered.childElements_sorted id
        refine List.Pairwise.imp_of_mem (fun hf hs before a ha b hb => ?_) siblings
        obtain ⟨found, within⟩ := inner hf ha
        obtain ⟨found', within'⟩ := inner hs hb
        exact ordered.lt_of_siblings found found' before within within'

end InOrder
end Document

namespace Builder

def elementId? : Child → Option Nat
  | .element child => some child
  | .text _ => none

theorem childElements_eq (d : Document) (id : Nat) :
    d.childElements id = (d.element id).children.filterMap elementId? := rfl

/-- Joining a text with the one before it does not touch the elements. -/
theorem filterMap_appendChild (child : Child) (children : List Child) :
    (appendChild child children).filterMap elementId? =
      children.filterMap elementId? ++ (elementId? child).toList := by
  have appended : (children ++ [child]).filterMap elementId? =
      children.filterMap elementId? ++ (elementId? child).toList := by
    rw [List.filterMap_append]
    cases h : elementId? child <;> simp [h]
  unfold appendChild
  split
  next more before last =>
    obtain ⟨front, rfl⟩ := List.getLast?_eq_some_iff.mp last
    simp [List.filterMap_cons, elementId?]
  next => exact appended

@[simp] theorem size_addChild (d : Document) (id : Nat) (child : Child) :
    (addChild d id child).size = d.size :=
  Array.size_modify

theorem element_addChild (d : Document) (id : Nat) (child : Child) (i : Nat) :
    (addChild d id child).element i =
      if id = i ∧ i < d.size then
        { d.element i with children := appendChild child (d.element i).children }
      else d.element i := by
  simp only [addChild, Document.element, Document.size, Array.getD_eq_getD_getElem?,
    Array.getElem?_modify]
  by_cases same : id = i <;> by_cases bound : i < d.elements.size <;> simp [same, bound]

@[simp] theorem parent?_addChild (d : Document) (id : Nat) (child : Child) (i : Nat) :
    (addChild d id child).parent? i = d.parent? i := by
  rw [Document.parent?, element_addChild]
  split <;> rfl

theorem childElements_addChild {d : Document} {id : Nat} (bound : id < d.size) (child : Child)
    (i : Nat) : (addChild d id child).childElements i =
      d.childElements i ++ if id = i then (elementId? child).toList else [] := by
  rw [childElements_eq, childElements_eq, element_addChild]
  by_cases same : id = i
  · rw [if_pos ⟨same, same ▸ bound⟩, if_pos same, filterMap_appendChild]
  · rw [if_neg (fun h => same h.1), if_neg same, List.append_nil]

/-- The document with one more element. -/
def push (d : Document) (e : Element) : Document := { d with elements := d.elements.push e }

@[simp] theorem size_push (d : Document) (e : Element) : (push d e).size = d.size + 1 :=
  Array.size_push _

theorem element_push (d : Document) (e : Element) (i : Nat) :
    (push d e).element i = if i = d.size then e else d.element i := by
  simp only [push, Document.element, Document.size, Array.getD_eq_getD_getElem?,
    Array.getElem?_push]
  split <;> rfl

/-- The numbers of the open elements, the innermost first, and of the document. -/
def stack (b : Builder) : List Nat := b.opened.map (·.id) ++ [documentId]

theorem exists_stack_eq (b : Builder) : ∃ rest, b.stack = b.current :: rest := by
  unfold stack current
  cases b.opened with
  | nil => exact ⟨[], rfl⟩
  | cons element rest => exact ⟨_, rfl⟩

/-- A document with one more element, the last one, within the element `p`. -/
structure Grown (d : Document) (p : Nat) (d' : Document) : Prop where
  size : d'.size = d.size + 1
  parent? : ∀ i, d'.parent? i = if i = d.size then some p else d.parent? i
  children : ∀ i, d'.childElements i = d.childElements i ++ if p = i then [d.size] else []

theorem grown_addElement {b : Builder} (bound : b.current < b.document.size) (rawName : List Char)
    (written : List (List Char × String)) :
    Grown b.document b.current (b.addElement rawName written).2 := by
  obtain ⟨e, parent, empty, grown⟩ : ∃ e : Element, e.parent = some b.current ∧ e.children = [] ∧
      (b.addElement rawName written).2 =
        addChild (push b.document e) b.current (.element b.document.size) :=
    ⟨_, rfl, rfl, rfl⟩
  have held (i : Nat) : (push b.document e).childElements i = b.document.childElements i := by
    rw [childElements_eq, childElements_eq, element_push]
    split
    next beyond =>
      subst beyond
      simp [empty, Document.element, Document.size, Array.getD_eq_getD_getElem?]
    next => rfl
  rw [grown]
  refine ⟨by simp, fun i => ?_, fun i => ?_⟩
  · rw [parent?_addChild, Document.parent?, element_push]
    split
    next => exact parent
    next => rfl
  · rw [childElements_addChild (by rw [size_push]; omega), held]
    rfl

section Grown
variable {d d' : Document} {p : Nat} (grown : Grown d p d')
include grown

theorem Grown.kept {i q : Nat} (found : d.parent? i = some q) : d'.parent? i = some q := by
  have := Document.lt_size_of_parent? found
  rw [grown.parent?, if_neg (by omega), found]

theorem Grown.within {inner outer : Nat} (within : d.Within inner outer) :
    d'.Within inner outer :=
  (ReflTransGen.mono fun _ _ found => grown.kept found) _ _ within

theorem Grown.last : d'.parent? d.size = some p := by
  rw [grown.parent?, if_pos rfl]

/-- An element may be added within any one that is around the last one. -/
theorem Grown.inOrder (ordered : d.InOrder) (last : d.Within (d.size - 1) p) : d'.InOrder where
  nonempty := by
    rw [grown.size]
    omega
  root := by
    have := ordered.nonempty
    rw [grown.parent?, if_neg (by unfold documentId; omega), ordered.root]
  parent_lt {id q} found := by
    have := ordered.nonempty
    have := ordered.within_le last
    rw [grown.parent?] at found
    split at found
    next => cases found; omega
    next => exact ordered.parent_lt found
  next {id} bound := by
    rw [grown.size] at bound
    rcases Nat.lt_or_ge (id + 1) d.size with inside | behind
    · obtain ⟨q, found, within⟩ := ordered.next inside
      exact ⟨q, grown.kept found, grown.within within⟩
    · obtain rfl : id = d.size - 1 := by omega
      refine ⟨p, ?_, grown.within last⟩
      rw [show d.size - 1 + 1 = d.size by omega, grown.last]
  children id := by
    have before : (List.range d.size).filter (fun child => d'.parent? child == some id) =
        (List.range d.size).filter fun child => d.parent? child == some id := by
      apply List.filter_congr
      intro child hc
      rw [grown.parent?, if_neg (List.mem_range.mp hc).ne]
    rw [grown.children, ordered.children, grown.size, List.range_succ, List.filter_append, before]
    by_cases same : p = id <;> simp [grown.last, same]

end Grown

/-- A document in which elements and their places are the same. -/
structure Alike (d d' : Document) : Prop where
  size : d'.size = d.size
  parent? : d'.parent? = d.parent?
  children : d'.childElements = d.childElements

theorem alike_addText {b : Builder} (bound : b.current < b.document.size) (text : String) :
    Alike b.document (b.addText text).document := by
  unfold addText
  split
  next => exact ⟨rfl, rfl, rfl⟩
  next element rest opened =>
    have inner : element.id = b.current := by simp [current, opened]
    refine ⟨size_addChild _ _ _, funext fun i => parent?_addChild _ _ _ i, funext fun i => ?_⟩
    rw [childElements_addChild (inner ▸ bound)]
    simp [elementId?]

theorem Alike.within_eq {d d' : Document} (alike : Alike d d') : d'.Within = d.Within := by
  simp only [Document.Within, alike.parent?]

theorem Alike.inOrder {d d' : Document} (alike : Alike d d') (ordered : d.InOrder) :
    d'.InOrder where
  nonempty := alike.size ▸ ordered.nonempty
  root := alike.parent? ▸ ordered.root
  parent_lt := alike.parent? ▸ ordered.parent_lt
  next := by
    rw [alike.size, alike.parent?, alike.within_eq]
    exact ordered.next
  children := by
    rw [alike.size, alike.parent?, alike.children]
    exact ordered.children

/-- The open elements are the ones around the last start tag that are not closed: each is a child of
the next one, and the last element lies within the innermost. -/
structure InOrder (b : Builder) : Prop where
  document : b.document.InOrder
  nested : b.stack.IsChain fun inner outer => b.document.parent? inner = some outer
  last : b.document.Within (b.document.size - 1) b.current

theorem InOrder.current_lt {b : Builder} (ordered : b.InOrder) : b.current < b.document.size := by
  have := ordered.document.within_le ordered.last
  have := ordered.document.nonempty
  omega

theorem inOrder_start : InOrder {} := by
  have none (i : Nat) : ({} : Document).parent? i = none := by
    rcases i with _ | i <;> rfl
  refine ⟨⟨Nat.one_pos, rfl, fun found => by simp [none] at found, ?_, ?_⟩, ?_, .refl⟩
  · intro id bound
    exact absurd bound (by simp [Document.size])
  · intro id
    have empty : ({} : Document).childElements id = [] := by
      rcases id with _ | id <;> rfl
    simp [empty, none]
  · exact List.isChain_singleton _

section Steps
variable {b : Builder} (ordered : b.InOrder)
include ordered

theorem InOrder.nested_of_grown {d' : Document} (grown : Grown b.document b.current d') :
    b.stack.IsChain fun inner outer => d'.parent? inner = some outer :=
  ordered.nested.imp fun _ _ found => grown.kept found

theorem InOrder.open {d' : Document} {element : Open} (grown : Grown b.document b.current d')
    (number : element.id = b.document.size) :
    InOrder { document := d', opened := element :: b.opened } where
  document := grown.inOrder ordered.document ordered.last
  nested := by
    obtain ⟨rest, stack⟩ := b.exists_stack_eq
    have nested := ordered.nested_of_grown grown
    change (element.id :: b.stack).IsChain _
    rw [stack] at nested ⊢
    exact .cons_cons (number ▸ grown.last) nested
  last := by
    rw [grown.size, Nat.add_sub_cancel, ← number]
    exact .refl

theorem InOrder.add {d' : Document} (grown : Grown b.document b.current d') :
    InOrder { b with document := d' } where
  document := grown.inOrder ordered.document ordered.last
  nested := ordered.nested_of_grown grown
  last := by
    rw [grown.size, Nat.add_sub_cancel]
    exact .single grown.last

theorem InOrder.close {element : Open} {rest : List Open} (opened : b.opened = element :: rest) :
    InOrder { b with opened := rest } := by
  have nested := ordered.nested
  have last := ordered.last
  obtain ⟨outer, left⟩ := exists_stack_eq { b with opened := rest }
  have inner : b.current = element.id := by simp [current, opened]
  have whole : b.stack = element.id :: stack { b with opened := rest } := by simp [stack, opened]
  rw [whole, left, List.isChain_cons_cons] at nested
  rw [inner] at last
  refine ⟨ordered.document, ?_, last.tail nested.1⟩
  rw [left]
  exact nested.2

theorem InOrder.addText (text : String) : (b.addText text).InOrder := by
  have alike := alike_addText ordered.current_lt text
  have opened : (b.addText text).opened = b.opened := by
    unfold Builder.addText
    split <;> rfl
  refine ⟨alike.inOrder ordered.document, ?_, ?_⟩
  · rw [stack, opened, alike.parent?]
    exact ordered.nested
  · rw [alike.size, alike.within_eq, current, opened]
    exact ordered.last

theorem InOrder.step {b' : Builder} {e : Event} (stepped : b.step e = .ok b') : b'.InOrder := by
  unfold Builder.step at stepped
  split at stepped
  next name text =>
    split at stepped
    next written _ =>
      cases stepped
      exact ordered.open (grown_addElement ordered.current_lt name written) rfl
    next => cases stepped
  next name text =>
    split at stepped
    next written _ =>
      cases stepped
      exact ordered.add (grown_addElement ordered.current_lt name written)
    next => cases stepped
  next name =>
    split at stepped
    next element rest opened =>
      split at stepped
      next => cases stepped; exact ordered.close opened
      next => cases stepped
    next => cases stepped
  next raw =>
    split at stepped
    next cs _ => cases stepped; exact ordered.addText _
    next => cases stepped
  next content => cases stepped; exact ordered.addText _
  next => cases stepped; exact ordered
  next => cases stepped

end Steps

theorem InOrder.run {b b' : Builder} {events : List Event} (ordered : b.InOrder)
    (ran : events.foldlM Builder.step b = .ok b') : b'.InOrder := by
  induction events generalizing b with
  | nil => cases ran; exact ordered
  | cons e rest ih =>
    rw [List.foldlM_cons] at ran
    cases stepped : b.step e with
    | error => rw [stepped] at ran; cases ran
    | ok next => rw [stepped] at ran; exact ih (ordered.step stepped) ran

end Builder

/-- The elements of a document that was read are numbered in document order. -/
theorem Document.inOrder_of_parse {text : String} {d : Document}
    (parsed : Document.parse text = .ok d) : d.InOrder := by
  unfold Document.parse Document.ofEvents at parsed
  cases ran : (documentEvents text).foldlM Builder.step {} with
  | error => rw [ran] at parsed; cases parsed
  | ok b =>
    have ordered := Builder.inOrder_start.run ran
    rw [ran] at parsed
    simp only [bind, Except.bind] at parsed
    split at parsed
    next => cases parsed
    next =>
      split at parsed
      next => cases parsed
      next => cases parsed; exact ordered.document

end CatalogGraph.Xml
