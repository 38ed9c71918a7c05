import CatalogGraph.Proofs.DocumentOrder
import CatalogGraph.Proofs.PathChains
import CatalogGraph.XPath.Parser

/-!
The order of selected elements. Steps collect what they select context by context, so that the
elements are in document order exactly as long as no step to children selects a child of an element
and then, for a later context, something before that child.
-/
namespace CatalogGraph.XPath
open Xml (Document Item)
open Relation (ReflTransGen)

/-- The number of the element that an item is, if it is one. -/
def elementId? : Item → Option Nat
  | .element id => some id
  | _ => none

/-- The numbers of the elements among items. -/
def elementIds (items : List Item) : List Nat := items.filterMap elementId?

/-- The elements among items are in the order of their start tags, each once. -/
def InDocumentOrder (items : List Item) : Prop := (elementIds items).Pairwise (· < ·)

/-- A step to children, to the item itself or to attributes, or the step of two slashes. -/
def Step.IsDownward : Step → Prop
  | .mk axis test predicates =>
    axis = .child ∨ axis = .self ∨ axis = .attribute ∨
      Step.mk axis test predicates = .descendants

/-- A step to child elements. -/
def Step.IsToChildren : Step → Prop
  | .mk axis test _ => axis = .child ∧ test ≠ .text

section Ids

theorem elementId?_eq_some_iff {item : Item} {id : Nat} :
    elementId? item = some id ↔ item = .element id := by
  cases item <;> simp [elementId?]

theorem mem_elementIds {items : List Item} {id : Nat} :
    id ∈ elementIds items ↔ .element id ∈ items := by
  simp [elementIds, elementId?_eq_some_iff]

theorem elementIds_append (items more : List Item) :
    elementIds (items ++ more) = elementIds items ++ elementIds more :=
  List.filterMap_append

theorem elementIds_map (ids : List Nat) : elementIds (ids.map .element) = ids := by
  simp [elementIds, List.filterMap_map, elementId?, Function.comp_def]

theorem elementIds_eraseDups (items : List Item) :
    elementIds items.eraseDups = (elementIds items).eraseDups := by
  induction items using List.reverseRecOn with
  | nil => rfl
  | append_singleton items item ih =>
    rw [eraseDups_concat, elementIds_append]
    cases element : elementId? item with
    | none =>
      have others : elementIds [item] = [] := by simp [elementIds, element]
      split
      next => simpa [others] using ih
      next => rw [elementIds_append, others, List.append_nil, List.append_nil, ih]
    | some id =>
      obtain rfl := elementId?_eq_some_iff.mp element
      rw [show elementIds [.element id] = [id] from rfl, eraseDups_concat]
      split
      next known => rw [if_pos (mem_elementIds.mpr known), ih]
      next fresh =>
        rw [if_neg (mt mem_elementIds.mp fresh), elementIds_append, ih]
        rfl

theorem elementIds_flatMap {f : Item → List Item}
    (elements : ∀ item id, .element id ∈ f item → ∃ context, item = .element context)
    (items : List Item) :
    elementIds (items.flatMap f) =
      (elementIds items).flatMap fun id => elementIds (f (.element id)) := by
  induction items with
  | nil => rfl
  | cons item rest ih =>
    rw [List.flatMap_cons, elementIds_append, ih]
    cases element : elementId? item with
    | none =>
      have none : elementIds (f item) = [] := by
        rw [List.eq_nil_iff_forall_not_mem]
        intro id hm
        obtain ⟨context, rfl⟩ := elements item id (mem_elementIds.mp hm)
        cases element
      rw [none, List.nil_append, elementIds, elementIds, List.filterMap_cons_none element]
    | some id =>
      obtain rfl := elementId?_eq_some_iff.mp element
      rfl

end Ids

section Steps
variable {d : Document}

theorem filterAll_sublist (predicates : List Predicate) (items : List Item) :
    (filterAll d predicates items).Sublist items := by
  induction predicates generalizing items with
  | nil => exact .refl items
  | cons predicate rest ih =>
    rw [filterAll]
    refine (ih _).trans ?_
    cases predicate with
    | position n =>
      rw [Predicate.keep]
      cases n with
      | zero => exact List.nil_sublist _
      | succ n =>
        rw [atPosition]
        cases found : items[n]? with
        | none => exact List.nil_sublist _
        | some item => exact List.singleton_sublist.mpr (List.mem_of_getElem? found)
    | filter condition => exact List.filter_sublist

/-- The elements that a step reaches from an element. -/
def Step.found (d : Document) (step : Step) (id : Nat) : List Nat :=
  elementIds (step.select d (.element id))

theorem found_sublist {axis : Axis} {test : NodeTest} {predicates : List Predicate} {id : Nat} :
    ((Step.mk axis test predicates).found d id).Sublist
      (elementIds (axisItems d (.element id) axis test)) :=
  (filterAll_sublist _ _).filterMap _

theorem found_child {test : NodeTest} {predicates : List Predicate} {id : Nat} :
    ((Step.mk .child test predicates).found d id).Sublist (d.childElements id) := by
  refine found_sublist.trans ?_
  rw [axisItems]
  split
  next => split <;> exact List.nil_sublist _
  next =>
    rw [elementIds_map]
    exact List.filter_sublist

theorem found_text {predicates : List Predicate} {id : Nat} :
    (Step.mk .child .text predicates).found d id = [] := by
  refine List.sublist_nil.mp (found_sublist.trans (List.sublist_nil.mpr ?_))
  simp only [axisItems, beq_self_eq_true, if_true]
  split <;> rfl

theorem found_self {test : NodeTest} {predicates : List Predicate} {id : Nat} :
    ((Step.mk .self test predicates).found d id).Sublist [id] := by
  refine found_sublist.trans ?_
  rw [axisItems]
  split
  next => exact .refl _
  next => exact List.nil_sublist _

theorem found_attribute {test : NodeTest} {predicates : List Predicate} {id : Nat} :
    (Step.mk .attribute test predicates).found d id = [] := by
  refine List.sublist_nil.mp (found_sublist.trans (List.sublist_nil.mpr ?_))
  simp [axisItems, elementIds, List.filterMap_map, elementId?, Function.comp_def]

theorem found_descendants : Step.descendants.found d = d.descendantsOrSelf := by
  funext id
  simp [Step.found, Step.descendants, Step.select, filterAll, axisItems, elementIds_map]

/-- A downward step reaches elements from elements only. -/
theorem Step.IsDownward.elements {step : Step} (downward : step.IsDownward) (item : Item) (id : Nat)
    (hm : .element id ∈ step.select d item) : ∃ context, item = .element context := by
  obtain ⟨axis, test, predicates⟩ := step
  have hm : .element id ∈ axisItems d item axis test := (filterAll_sublist _ _).mem hm
  cases element : elementId? item with
  | some context => exact ⟨context, elementId?_eq_some_iff.mp element⟩
  | none =>
    have other : item ≠ .element id := by
      rintro rfl
      cases element
    have same : axisItems d item axis test ⊆ [item] := by
      rcases downward with rfl | rfl | rfl | same
      · cases item <;> simp_all [axisItems, elementId?]
      · cases item <;> simp_all [axisItems, elementId?]
      · cases item <;> simp_all [axisItems, elementId?]
      · obtain ⟨rfl, rfl, _⟩ := Step.mk.inj same
        cases item <;> simp_all [axisItems, elementId?]
    exact absurd (List.mem_singleton.mp (same hm)).symm other

end Steps

/-- A step to children reaches a child of an element, and then, for another of the elements that
lies within an earlier child, a child of that one. -/
def Step.Crosses (d : Document) (step : Step) (items : List Item) : Prop :=
  step.IsToChildren ∧ ∃ outer inner earlier later,
    .element outer ∈ items ∧ .element inner ∈ items ∧
    d.parent? earlier = some outer ∧ d.Within inner earlier ∧
    later ∈ step.found d outer ∧ earlier < later ∧ step.found d inner ≠ []

section Order
variable {d : Document} (ordered : d.InOrder) {ids : List Nat}
include ordered

/-- The elements within ones that are in order are found in order, up to repeats. -/
theorem descendants_sorted (sorted : ids.Pairwise (· < ·)) :
    (ids.flatMap d.descendantsOrSelf).eraseDups.Pairwise (· < ·) := by
  induction ids using List.reverseRecOn with
  | nil => simp
  | append_singleton ids id ih =>
    obtain ⟨sorted, _, last⟩ := List.pairwise_append.mp sorted
    have ih := ih sorted
    rw [List.flatMap_append, List.flatMap_singleton]
    by_cases nested : ∃ outer ∈ ids, d.Within id outer
    · obtain ⟨outer, ho, within⟩ := nested
      have known : d.descendantsOrSelf id ⊆ ids.flatMap d.descendantsOrSelf := by
        intro a ha
        have inside := (ordered.mem_descendantsOrSelf_iff.mp ha).trans within
        exact List.mem_flatMap.mpr ⟨outer, ho, ordered.mem_descendantsOrSelf_iff.mpr inside⟩
      rw [eraseDups_append_of_subset known]
      exact ih
    · have before {a : Nat} (ha : a ∈ ids.flatMap d.descendantsOrSelf) : a < id := by
        obtain ⟨outer, ho, ha⟩ := List.mem_flatMap.mp ha
        have within := ordered.mem_descendantsOrSelf_iff.mp ha
        by_contra behind
        have := last outer ho id (by simp)
        exact nested ⟨outer, ho, ordered.within_of_between within (by omega) (by omega)⟩
      have behind {a : Nat} (ha : a ∈ d.descendantsOrSelf id) : id ≤ a :=
        ordered.within_le (ordered.mem_descendantsOrSelf_iff.mp ha)
      have fresh : (d.descendantsOrSelf id).removeAll (ids.flatMap d.descendantsOrSelf) =
          d.descendantsOrSelf id := by
        rw [List.removeAll, List.filter_eq_self]
        intro a ha
        have : a ∉ ids.flatMap d.descendantsOrSelf := by
          intro known
          have := before known
          have := behind ha
          omega
        simpa using this
      have block := ordered.descendantsOrSelf_sorted id
      rw [List.eraseDups_append, fresh, eraseDups_of_nodup (block.imp fun lt => lt.ne)]
      refine List.pairwise_append.mpr ⟨ih, block, fun a ha b hb => ?_⟩
      exact (before (List.mem_eraseDups.mp ha)).trans_le (behind hb)

omit ordered in
theorem apart_of_sorted {R : Nat → Nat → Prop} (sorted : ids.Pairwise (· < ·))
    (apart : ids.Pairwise R) {a b : Nat} (ha : a ∈ ids) (hb : b ∈ ids) (lt : a < b) : R a b := by
  induction ids with
  | nil => cases ha
  | cons id rest ih =>
    obtain ⟨first, sorted⟩ := List.pairwise_cons.mp sorted
    obtain ⟨firstApart, apart⟩ := List.pairwise_cons.mp apart
    rcases List.mem_cons.mp ha with rfl | onward
    · exact firstApart b ((List.mem_cons.mp hb).resolve_left lt.ne')
    · rcases List.mem_cons.mp hb with rfl | further
      · exact absurd (first a onward) lt.asymm
      · exact ih sorted apart onward further

omit ordered in
theorem flatMap_sublist {f : Nat → List Nat} (kept : ∀ id, (f id).Sublist [id]) :
    (ids.flatMap f).Sublist ids := by
  induction ids with
  | nil => exact .refl _
  | cons id rest ih => exact (kept id).append ih

/-- What a step to children reaches from distinct elements is distinct. -/
theorem children_nodup {test : NodeTest} {predicates : List Predicate} (nodup : ids.Nodup) :
    (ids.flatMap ((Step.mk .child test predicates).found d)).Nodup := by
  have parent {id child : Nat} (hc : child ∈ (Step.mk .child test predicates).found d id) :
      d.parent? child = some id :=
    ordered.mem_childElements_iff.mp (found_child.mem hc)
  rw [List.nodup_flatMap]
  refine ⟨fun id _ => ?_, nodup.imp fun other child ha hb => ?_⟩
  · exact ((ordered.childElements_sorted id).sublist found_child).imp fun lt => lt.ne
  · exact other (Option.some.inj ((parent ha).symm.trans (parent hb)))

/-- From elements in order, a step to children reaches elements in order unless it crosses. -/
theorem children_sorted_iff {items : List Item} {test : NodeTest} {predicates : List Predicate}
    (sorted : InDocumentOrder items) (elementTest : test ≠ .text) :
    ((elementIds items).flatMap ((Step.mk .child test predicates).found d)).Pairwise (· < ·) ↔
      ¬ (Step.mk .child test predicates).Crosses d items := by
  set step := Step.mk .child test predicates with toChildren
  have parent {id child : Nat} (hc : child ∈ step.found d id) : d.parent? child = some id :=
    ordered.mem_childElements_iff.mp (found_child.mem hc)
  rw [List.pairwise_flatMap]
  constructor
  · rintro ⟨_, apart⟩ ⟨_, outer, inner, earlier, later, ho, hi, he, within, hl, before, reached⟩
    obtain ⟨child, hc⟩ := List.exists_mem_of_ne_nil _ reached
    -- The inner element comes later, so its child should lie behind the later child.
    have lt : outer < inner := (ordered.parent_lt he).trans_le (ordered.within_le within)
    have := apart_of_sorted sorted apart (mem_elementIds.mpr ho) (mem_elementIds.mpr hi) lt
      later hl child hc
    have := ordered.lt_of_siblings he (parent hl) before (within.head (parent hc)) .refl
    omega
  · intro straight
    refine ⟨fun id _ => (ordered.childElements_sorted id).sublist found_child, ?_⟩
    refine List.Pairwise.imp_of_mem (fun {outer inner} ho hi before a ha b hb => ?_) sorted
    have inside : inner < b := ordered.parent_lt (parent hb)
    by_contra behind
    have within := ordered.within_of_between (.single (parent ha)) before.le (by omega)
    obtain same | ⟨child, within, hc⟩ := ReflTransGen.cases_tail within
    · omega
    · have := ordered.within_le within
      have reached : step.found d inner ≠ [] := List.ne_nil_of_mem hb
      have earlier : child < a := by
        rcases Nat.lt_or_ge child a with lt | ge
        · exact lt
        · omega
      exact straight ⟨⟨rfl, elementTest⟩, outer, inner, child, a, mem_elementIds.mp ho,
        mem_elementIds.mp hi, hc, within, ha, earlier, reached⟩

end Order

section Paths
variable {d : Document}

theorem elementIds_concat {step : Step} (downward : step.IsDownward) (absolute : Bool)
    (before : List Step) (item : Item) :
    elementIds ((LocationPath.mk absolute (before ++ [step])).select d item) =
      ((elementIds ((LocationPath.mk absolute before).select d item)).flatMap
        (step.found d)).eraseDups := by
  rw [LocationPath.select, LocationPath.select, selectSteps_append, selectSteps, selectSteps,
    newItems_nil, elementIds_eraseDups, elementIds_flatMap downward.elements]
  rfl

/-- A downward step keeps the order exactly if it does not cross. -/
theorem concat_inOrder_iff (ordered : d.InOrder) {step : Step} (downward : step.IsDownward)
    {absolute : Bool} {before : List Step} {item : Item}
    (sorted : InDocumentOrder ((LocationPath.mk absolute before).select d item)) :
    InDocumentOrder ((LocationPath.mk absolute (before ++ [step])).select d item) ↔
      ¬ step.Crosses d ((LocationPath.mk absolute before).select d item) := by
  obtain ⟨axis, test, predicates⟩ := step
  have straight (other : axis ≠ .child) :
      ¬ (Step.mk axis test predicates).Crosses d ((LocationPath.mk absolute before).select d item) :=
    fun crosses => other crosses.1.1
  have nodup : (elementIds ((LocationPath.mk absolute before).select d item)).Nodup :=
    sorted.imp fun lt => lt.ne
  unfold InDocumentOrder
  rw [elementIds_concat downward]
  rcases downward with rfl | rfl | rfl | same
  · by_cases text : test = .text
    · subst text
      refine iff_of_true ?_ fun crosses => crosses.1.2 rfl
      rw [List.flatMap_eq_nil_iff.mpr fun _ _ => found_text]
      simp
    · rw [eraseDups_of_nodup (children_nodup ordered nodup), children_sorted_iff ordered sorted text]
  · have kept : ((elementIds ((LocationPath.mk absolute before).select d item)).flatMap
        ((Step.mk .self test predicates).found d)).Sublist
          (elementIds ((LocationPath.mk absolute before).select d item)) :=
      flatMap_sublist fun _ => found_self
    refine iff_of_true ?_ (straight (by simp))
    rw [eraseDups_of_nodup (nodup.sublist kept)]
    exact List.Pairwise.sublist kept sorted
  · refine iff_of_true ?_ (straight (by simp))
    rw [List.flatMap_eq_nil_iff.mpr fun _ _ => found_attribute]
    simp
  · obtain ⟨rfl, rfl, rfl⟩ := Step.mk.inj same
    refine iff_of_true ?_ (straight (by simp))
    rw [← Step.descendants, found_descendants]
    exact descendants_sorted ordered sorted

/-- No step to child elements stands behind two slashes. -/
def ChildrenFirst (steps : List Step) : Prop :=
  ∀ before after, steps = before ++ .descendants :: after → ∀ step ∈ after, ¬ step.IsToChildren

theorem inOrder_prefixes_iff (ordered : d.InOrder) {absolute : Bool} {steps : List Step}
    (downward : ∀ step ∈ steps, step.IsDownward) (item : Item) :
    (∀ before, before <+: steps →
        InDocumentOrder ((LocationPath.mk absolute before).select d item)) ↔
      ∀ before step, before ++ [step] <+: steps →
        ¬ step.Crosses d ((LocationPath.mk absolute before).select d item) := by
  have down {before : List Step} {step : Step} (start : before ++ [step] <+: steps) :
      step.IsDownward := downward step (start.subset (by simp))
  constructor
  · intro sorted before step start
    have earlier := sorted before ((List.prefix_append _ _).trans start)
    exact (concat_inOrder_iff ordered (down start) earlier).mp (sorted _ start)
  · intro straight before
    induction before using List.reverseRecOn with
    | nil =>
      intro _
      change (elementIds [origin absolute item]).Pairwise (· < ·)
      rw [elementIds]
      cases element : elementId? (origin absolute item) <;> simp [element]
    | append_singleton before step ih =>
      intro start
      have earlier := ih ((List.prefix_append _ _).trans start)
      exact (concat_inOrder_iff ordered (down start) earlier).mpr (straight before step start)

/-- Without two slashes no element that is selected lies within another one. -/
theorem apart_of_no_descendants (ordered : d.InOrder) {absolute : Bool} {steps : List Step}
    (downward : ∀ step ∈ steps, step.IsDownward) (none : .descendants ∉ steps) (item : Item)
    {inner outer : Nat}
    (hi : .element inner ∈ (LocationPath.mk absolute steps).select d item)
    (ho : .element outer ∈ (LocationPath.mk absolute steps).select d item)
    (within : d.Within inner outer) : inner = outer := by
  induction steps using List.reverseRecOn generalizing inner outer with
  | nil =>
    have hi : .element inner ∈ [origin absolute item] := hi
    have ho : .element outer ∈ [origin absolute item] := ho
    rw [List.mem_singleton] at hi ho
    exact Item.element.inj (hi.trans ho.symm)
  | append_singleton before step ih =>
    have down := downward step (by simp)
    simp only [← mem_elementIds] at hi ho ih
    have same {inner outer : Nat} := @ih (fun step hs => downward step (by simp [hs]))
      (fun hm => none (by simp [hm])) inner outer
    rw [elementIds_concat down, List.mem_eraseDups, List.mem_flatMap] at hi ho
    obtain ⟨a, ha, hi⟩ := hi
    obtain ⟨b, hb, ho⟩ := ho
    obtain ⟨axis, test, predicates⟩ := step
    rcases down with rfl | rfl | rfl | slashes
    · have hi := ordered.mem_childElements_iff.mp (found_child.mem hi)
      have ho := ordered.mem_childElements_iff.mp (found_child.mem ho)
      rcases ReflTransGen.cases_head within with rfl | ⟨p, found, onward⟩
      · rfl
      · -- The parent of the inner one lies within the outer one, hence within its parent.
        obtain rfl : p = a := Option.some.inj (found.symm.trans hi)
        obtain rfl := same ha hb (onward.tail ho)
        have := ordered.within_le onward
        have := ordered.parent_lt ho
        omega
    · obtain rfl := List.mem_singleton.mp (found_self.mem hi)
      obtain rfl := List.mem_singleton.mp (found_self.mem ho)
      exact same ha hb within
    · simp [found_attribute] at hi
    · exact absurd (by simp [slashes]) none

theorem not_crosses_of_childrenFirst (ordered : d.InOrder) {absolute : Bool} {steps : List Step}
    (downward : ∀ step ∈ steps, step.IsDownward) (first : ChildrenFirst steps) {item : Item}
    {before : List Step} {step : Step} (start : before ++ [step] <+: steps) :
    ¬ step.Crosses d ((LocationPath.mk absolute before).select d item) := by
  rintro ⟨toChildren, outer, inner, earlier, later, ho, hi, he, within, _⟩
  obtain ⟨after, rfl⟩ := start
  by_cases slashes : .descendants ∈ before
  · obtain ⟨front, back, rfl⟩ := List.append_of_mem slashes
    exact first front (back ++ step :: after) (by simp) step (by simp) toChildren
  · have same := apart_of_no_descendants ordered
      (fun step hs => downward step (by simp [hs])) slashes item hi ho (within.tail he)
    have := ordered.within_le within
    have := ordered.parent_lt he
    omega

/-- Over a document that was read, the elements that a downward path selects are in document order
after each of its steps exactly if no step to children crosses: reaches a child of an element, and
then a child of an element that lies within an earlier child of the first. That never happens if no
step to child elements stands behind two slashes. -/
theorem selected_in_order_iff_not_crossing {text : String} {d : Document}
    (parsed : Document.parse text = .ok d) {absolute : Bool} {steps : List Step}
    (downward : ∀ step ∈ steps, step.IsDownward) (item : Item) :
    ((∀ before, before <+: steps →
        InDocumentOrder ((LocationPath.mk absolute before).select d item)) ↔
      ∀ before step, before ++ [step] <+: steps →
        ¬ step.Crosses d ((LocationPath.mk absolute before).select d item)) ∧
    (ChildrenFirst steps → InDocumentOrder ((LocationPath.mk absolute steps).select d item)) := by
  have ordered := Document.inOrder_of_parse parsed
  have exactly := @inOrder_prefixes_iff d ordered absolute steps downward item
  refine ⟨exactly, fun first => exactly.mpr ?_ steps (List.prefix_refl _)⟩
  exact fun _ _ => not_crosses_of_childrenFirst ordered downward first

/-- The parts that stand side by side in two works are in order. -/
theorem parts_of_works_in_order :
    ∃ d, Document.parse "<works><work><part/><part/></work><work><part/></work></works>" = .ok d ∧
      InDocumentOrder ((LocationPath.mk true [.mk .child .wildcard [],
        .mk .child (.name none "work") [], .mk .child (.name none "part") []]).select d
          (.element Xml.documentId)) := by
  cases parsed : Document.parse "<works><work><part/><part/></work><work><part/></work></works>" with
  | ok d =>
    refine ⟨d, rfl, (selected_in_order_iff_not_crossing parsed ?_ _).2 ?_⟩
    · simp [Step.IsDownward]
    · intro before after shape
      have slashes : .descendants ∈ before ++ .descendants :: after := by simp
      rw [← shape] at slashes
      simp [Step.descendants] at slashes
  | error fault =>
    have read : (Document.parse
        "<works><work><part/><part/></work><work><part/></work></works>").isOk = true := by decide +kernel
    simp [parsed, Except.isOk, Except.toBool] at read

/-- Of the titles anywhere in a record the one of the whole comes first, though it starts behind the
one of a part. -/
theorem title_of_part_behind :
    ∃ d steps, Document.parse
        "<work><part><title>Loomings</title></part><title>Moby Dick</title></work>" = .ok d ∧
      (compile [] "//title" = .ok (.mk true steps) ∧ ∀ step ∈ steps, step.IsDownward) ∧
      ¬ InDocumentOrder ((LocationPath.mk true steps).select d (.element Xml.documentId)) := by
  have tokens : tokenize "//title".toList = .ok [.doubleSlash, .name "title"] := by decide +kernel
  have read : compile [] "//title" =
      .ok (.mk true [.descendants, .mk .child (.name none "title") []]) := by
    rw [compile, tokens]
    rfl
  have found : (Document.parse
      "<work><part><title>Loomings</title></part><title>Moby Dick</title></work>").map (fun d =>
        elementIds ((LocationPath.mk true
          [.descendants, .mk .child (.name none "title") []]).select d
            (.element Xml.documentId))) = .ok [4, 3] := by decide +kernel
  cases parsed : Document.parse
      "<work><part><title>Loomings</title></part><title>Moby Dick</title></work>" with
  | ok d =>
    rw [parsed] at found
    refine ⟨d, [.descendants, .mk .child (.name none "title") []], rfl,
      ⟨read, by simp [Step.IsDownward, Step.descendants]⟩, ?_⟩
    have found : elementIds _ = [4, 3] := Except.ok.inj found
    rw [InDocumentOrder, found]
    decide
  | error fault => simp [parsed, Except.map] at found

end Paths

end CatalogGraph.XPath
