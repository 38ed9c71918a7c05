import CatalogGraph.Proofs.DocumentSteps
import Mathlib.Data.List.Induction

/-!
Scopes of namespaces: a declaration holds for the names on its element and within it, as far as no
nearer element declares the same prefix, and for no other name.
-/
namespace CatalogGraph.Xml
open Relation (ReflTransGen)

/-- A start tag or an empty tag: its name and its attributes, by key. -/
structure Tag where
  rawName : List Char
  written : List (List Char × String)

/-- The key of a declaration of a prefix. The empty prefix stands for the default namespace, whose
key may lack the colon. -/
def IsDeclarationOf (start : String) (key : List Char) : Prop :=
  key = "xmlns:".toList ++ start.toList ∨ start = "" ∧ key = "xmlns".toList

/-- The last attribute that declares a prefix declares it for a namespace. -/
def Tag.Declares (tag : Tag) (start iri : String) : Prop :=
  ∃ before key behind, tag.written = before ++ (key, iri) :: behind ∧ IsDeclarationOf start key ∧
    ∀ pair ∈ behind, ¬ IsDeclarationOf start pair.1

/-- What a prefix stands for on an element, given the tags of the element and of those around it,
the innermost first: what the nearest tag that declares it says, or nothing if none does. -/
inductive InScope (start : String) : List Tag → Option String → Prop
  | nowhere : InScope start [] none
  | here {tag : Tag} {around : List Tag} {iri : String} (declared : tag.Declares start iri) :
      InScope start (tag :: around) (some iri)
  | around {tag : Tag} {around : List Tag} {found : Option String}
      (silent : ∀ iri, ¬ tag.Declares start iri) (onward : InScope start around found) :
      InScope start (tag :: around) found

/-- What a written name stands for on an element, given its tag and those around it. Only an element
without prefix is in the default namespace, unless that is empty. -/
inductive Resolves (lineage : List Tag) (isElement : Bool) : List Char → Name → Prop
  | xml (localPart : List Char) :
      Resolves lineage isElement ("xml:".toList ++ localPart)
        ⟨some xmlNamespace, String.ofList localPart⟩
  | prefixed {start localPart : List Char} {found : Option String} (colon : ':' ∉ start)
      (other : start ≠ "xml".toList) (scope : InScope (String.ofList start) lineage found) :
      Resolves lineage isElement (start ++ ':' :: localPart) ⟨found, String.ofList localPart⟩
  | plainElement {raw : List Char} {found : Option String} (colon : ':' ∉ raw)
      (element : isElement = true) (scope : InScope "" lineage found) :
      Resolves lineage isElement raw ⟨found.filter (· ≠ ""), String.ofList raw⟩
  | plainAttribute {raw : List Char} (colon : ':' ∉ raw) (other : isElement = false) :
      Resolves lineage isElement raw ⟨none, String.ofList raw⟩

/-- The name and the attributes of an element are those of its tag, each with the namespace that it
has there; declarations are no attributes. -/
def Bears (element : Element) : List Tag → Prop
  | [] => False
  | tag :: around =>
    Resolves (tag :: around) true tag.rawName element.name ∧
      List.Forall₂ (fun (pair : List Char × String) (a : Attribute) =>
          Resolves (tag :: around) false pair.1 a.name ∧ a.value = pair.2)
        (tag.written.filter fun pair => pair.1 ≠ "xmlns".toList ∧ ¬ "xmlns:".toList <+: pair.1)
        element.attributes

/-- Events are nested: what stands between a start tag and its end tag is nested itself. Listed are
the elements in the order of their start tags, each by its tag and the tags around it, of which the
outermost are given. -/
inductive Nested : List Tag → List Event → List (List Tag) → Prop
  | nothing {around : List Tag} : Nested around [] []
  | skipped {around : List Tag} {rest : List Event} {lineages : List (List Tag)}
      (onward : Nested around rest lineages) : Nested around (.skipped :: rest) lineages
  | characters {around : List Tag} {e : Event} {content : String} {rest : List Event}
      {lineages : List (List Tag)} (read : e.characters? = some content)
      (onward : Nested around rest lineages) : Nested around (e :: rest) lineages
  | empty {around : List Tag} {name text : List Char} {written : List (List Char × String)}
      {rest : List Event} {lineages : List (List Tag)} (read : attributesOf text = some written)
      (onward : Nested around rest lineages) :
      Nested around (.empty name text :: rest) ((⟨name, written⟩ :: around) :: lineages)
  | element {around : List Tag} {name text : List Char} {written : List (List Char × String)}
      {content rest : List Event} {inner lineages : List (List Tag)}
      (read : attributesOf text = some written)
      (within : Nested (⟨name, written⟩ :: around) content inner)
      (onward : Nested around rest lineages) :
      Nested around (.opening name text :: content ++ .closing name :: rest)
        ((⟨name, written⟩ :: around) :: inner ++ lineages)

section Declarations

theorem declaredPrefix?_eq_some_iff {key : List Char} {start : String} :
    declaredPrefix? key = some start ↔ IsDeclarationOf start key := by
  unfold declaredPrefix? IsDeclarationOf
  split
  next bare =>
    subst bare
    have other : "xmlns".toList ≠ "xmlns:".toList ++ start.toList := fun same => by
      have := congrArg List.length same
      simp at this
    rw [Option.some.injEq, eq_comm]
    exact ⟨fun empty => .inr ⟨empty, rfl⟩, fun declared => (declared.resolve_left other).1⟩
  next marked =>
    rw [Option.map_eq_some_iff]
    constructor
    · rintro ⟨rest, found, rfl⟩
      rw [Text.afterStart?_eq_some_iff] at found
      exact .inl (by simpa using found)
    · rintro (same | ⟨_, bare⟩)
      · exact ⟨start.toList, Text.afterStart?_eq_some_iff.mpr same, by simp⟩
      · exact absurd bare marked

theorem declaredPrefix?_eq_none_iff {key : List Char} :
    declaredPrefix? key = none ↔ key ≠ "xmlns".toList ∧ ¬ "xmlns:".toList <+: key := by
  rw [Option.eq_none_iff_forall_not_mem]
  simp only [Option.mem_def, declaredPrefix?_eq_some_iff, IsDeclarationOf]
  constructor
  · intro none
    refine ⟨fun bare => none "" (.inr ⟨rfl, bare⟩), ?_⟩
    rintro ⟨rest, rfl⟩
    exact none (String.ofList rest) (.inl (by simp))
  · rintro ⟨marked, other⟩ start (same | ⟨_, bare⟩)
    · exact other ⟨_, same.symm⟩
    · exact marked bare

/-- What a tag says about a prefix is what the last of its declarations of it says. -/
theorem Tag.declares_iff {tag : Tag} {start iri : String} :
    tag.Declares start iri ↔
      ((declarationsOf tag.written).reverse.find? (·.1 == start)).map (·.2) = some iri := by
  let read := fun (pair : List Char × String) =>
    (declaredPrefix? pair.1).map fun name => (name, pair.2)
  have declares (pair : List Char × String) :
      (read pair).any (·.1 == start) = true ↔ IsDeclarationOf start pair.1 := by
    rw [← declaredPrefix?_eq_some_iff]
    cases found : declaredPrefix? pair.1 <;> simp [read, found]
  have whole : declarationsOf tag.written = tag.written.filterMap read := rfl
  rw [whole, ← List.filterMap_reverse, List.find?_filterMap]
  constructor
  · rintro ⟨before, key, behind, written, declared, none⟩
    have first : tag.written.reverse.find? (fun pair => (read pair).any (·.1 == start)) =
        some (key, iri) := by
      rw [List.find?_eq_some_iff_append]
      refine ⟨(declares _).mpr declared, behind.reverse, before.reverse, by simp [written], ?_⟩
      intro pair mem
      have silent := none pair (List.mem_reverse.mp mem)
      rw [← declares] at silent
      simpa using silent
    have found := declaredPrefix?_eq_some_iff.mpr declared
    simp [first, read, found]
  · intro found
    obtain ⟨⟨name, value⟩, entry, rfl⟩ := Option.map_eq_some_iff.mp found
    obtain ⟨⟨key, value'⟩, first, entry⟩ := Option.bind_eq_some_iff.mp entry
    obtain ⟨declared, behind, before, written, none⟩ := List.find?_eq_some_iff_append.mp first
    obtain ⟨name', _, same⟩ := Option.map_eq_some_iff.mp entry
    obtain ⟨rfl, rfl⟩ := Prod.mk.inj same
    refine ⟨before.reverse, key, behind.reverse, ?_, (declares _).mp declared, ?_⟩
    · simpa using congrArg List.reverse written
    · intro pair mem
      have silent := none pair (List.mem_reverse.mp mem)
      rw [← declares]
      simpa using silent

/-- Looking a prefix up in the declarations of tags gives what it stands for in their scope. -/
theorem inScope_lookupPrefix (start : String) (lineage : List Tag) :
    InScope start lineage (lookupPrefix (lineage.map (declarationsOf ·.written)) start) := by
  induction lineage with
  | nil => exact .nowhere
  | cons tag around ih =>
    unfold lookupPrefix at ih ⊢
    rw [List.map_cons, List.findSome?_cons]
    cases found : ((declarationsOf tag.written).reverse.find? (·.1 == start)).map (·.2) with
    | some iri => exact .here (Tag.declares_iff.mpr found)
    | none =>
      refine .around (fun iri declared => ?_) ih
      rw [Tag.declares_iff, found] at declared
      cases declared

theorem splitName_plain {raw : List Char} (colon : ':' ∉ raw) : splitName raw = (none, raw) := by
  simp [splitName, colon]

theorem splitName_prefixed {start : List Char} (colon : ':' ∉ start) (localPart : List Char) :
    splitName (start ++ ':' :: localPart) = (some start, localPart) := by
  have before : ∀ c ∈ start, decide (c ≠ ':') = true := fun c mem =>
    decide_eq_true fun same => colon (same ▸ mem)
  rw [splitName, if_pos (by simp), List.takeWhile_append_of_pos before,
    List.dropWhile_append_of_pos before]
  simp

theorem resolves_resolveName (lineage : List Tag) (isElement : Bool) (raw : List Char) :
    Resolves lineage isElement raw
      (resolveName (lineage.map (declarationsOf ·.written)) isElement raw) := by
  by_cases mem : ':' ∈ raw
  · obtain ⟨start, localPart, rfl, colon⟩ := List.eq_append_cons_of_mem mem
    have scope := inScope_lookupPrefix (String.ofList start) lineage
    rw [resolveName, splitName_prefixed colon]
    by_cases xml : start = "xml".toList
    · subst xml
      exact .xml localPart
    · have other : String.ofList start ≠ "xml" := fun same => xml (by simp [← same])
      simp only [if_neg other]
      exact .prefixed colon xml scope
  · have scope := inScope_lookupPrefix "" lineage
    rw [resolveName, splitName_plain mem]
    cases isElement with
    | true => exact .plainElement mem rfl scope
    | false => exact .plainAttribute mem rfl

theorem bears_resolved (rawName : List Char) (written : List (List Char × String))
    (around : List Tag) (parent : Option Nat) (children : List Child) :
    Bears
      { name := resolveName
          (declarationsOf written :: around.map (declarationsOf ·.written)) true rawName
        attributes := plainAttributes
          (declarationsOf written :: around.map (declarationsOf ·.written)) written
        parent, children }
      (⟨rawName, written⟩ :: around) := by
  refine ⟨resolves_resolveName (⟨rawName, written⟩ :: around) _ _, ?_⟩
  have plain : written.filter (fun pair => (declaredPrefix? pair.1).isNone) =
      written.filter fun pair => pair.1 ≠ "xmlns".toList ∧ ¬ "xmlns:".toList <+: pair.1 := by
    apply List.filter_congr
    intro pair _
    rw [Bool.eq_iff_iff, Option.isNone_iff_eq_none, declaredPrefix?_eq_none_iff, decide_eq_true_iff]
  rw [plainAttributes, plain, List.forall₂_map_right_iff, List.forall₂_same]
  exact fun pair _ => ⟨resolves_resolveName (⟨rawName, written⟩ :: around) _ _, rfl⟩

theorem Bears.congr {e e' : Element} {lineage : List Tag} (bears : Bears e lineage)
    (same : e'.name = e.name ∧ e'.attributes = e.attributes) : Bears e' lineage := by
  cases lineage with
  | nil => exact bears
  | cons tag around => exact ⟨same.1 ▸ bears.1, same.2 ▸ bears.2⟩

end Declarations

namespace Builder

/-- Reading events from a document under construction adds elements for some tags, each within the
one whose tag is next in its lineage, and leaves the elements before them as they are. -/
structure Takes (around : List Tag) (b : Builder) (lineages : List (List Tag)) (b' : Builder) :
    Prop where
  opened : b'.opened = b.opened
  size : b'.document.size = b.document.size + lineages.length
  kept : ∀ i < b.document.size, (b'.document.element i).name = (b.document.element i).name ∧
    (b'.document.element i).attributes = (b.document.element i).attributes ∧
    b'.document.parent? i = b.document.parent? i
  bears : ∀ k lineage, lineages[k]? = some lineage →
    Bears (b'.document.element (b.document.size + k)) lineage
  placed : ∀ k lineage, lineages[k]? = some lineage →
    lineage.tail = around ∧ b'.document.parent? (b.document.size + k) = some b.current ∨
      ∃ j < k, lineages[j]? = some lineage.tail ∧
        b'.document.parent? (b.document.size + k) = some (b.document.size + j)

theorem Takes.nothing {around : List Tag} {b b' : Builder} (opened : b'.opened = b.opened)
    (size : b'.document.size = b.document.size)
    (kept : ∀ i < b.document.size, (b'.document.element i).name = (b.document.element i).name ∧
      (b'.document.element i).attributes = (b.document.element i).attributes ∧
      b'.document.parent? i = b.document.parent? i) : Takes around b [] b' :=
  ⟨opened, size, kept, nofun, nofun⟩

theorem Takes.trans {around : List Tag} {b b' b'' : Builder} {first second : List (List Tag)}
    (one : Takes around b first b') (two : Takes around b' second b'') :
    Takes around b (first ++ second) b'' where
  opened := two.opened.trans one.opened
  size := by
    rw [two.size, one.size, List.length_append]
    omega
  kept i bound := by
    have := one.size
    obtain ⟨name, attributes, parent⟩ := one.kept i bound
    obtain ⟨name', attributes', parent'⟩ := two.kept i (by omega)
    exact ⟨name'.trans name, attributes'.trans attributes, parent'.trans parent⟩
  bears k lineage found := by
    have size := one.size
    rcases Nat.lt_or_ge k first.length with before | behind
    · rw [List.getElem?_append_left before] at found
      obtain ⟨name, attributes, _⟩ := two.kept (b.document.size + k) (by omega)
      exact Bears.congr (one.bears k lineage found) ⟨name, attributes⟩
    · rw [List.getElem?_append_right behind] at found
      have place : b'.document.size + (k - first.length) = b.document.size + k := by omega
      exact place ▸ two.bears _ lineage found
  placed k lineage found := by
    have size := one.size
    have current : b'.current = b.current := by rw [Builder.current, one.opened]; rfl
    rcases Nat.lt_or_ge k first.length with before | behind
    · rw [List.getElem?_append_left before] at found
      rw [(two.kept _ (by omega)).2.2]
      rcases one.placed k lineage found with outer | ⟨j, less, inner, parent⟩
      · exact .inl outer
      · refine .inr ⟨j, less, ?_, parent⟩
        rw [List.getElem?_append_left (by omega), inner]
    · rw [List.getElem?_append_right behind] at found
      have place : b'.document.size + (k - first.length) = b.document.size + k := by omega
      have found := two.placed _ lineage found
      rw [place, current] at found
      rcases found with outer | ⟨j, less, inner, parent⟩
      · exact .inl outer
      · refine .inr ⟨first.length + j, by omega, ?_, ?_⟩
        · rw [List.getElem?_append_right (by omega), Nat.add_sub_cancel_left, inner]
        · rw [parent, size, Nat.add_assoc]

section Runs
variable {b : Builder} (ordered : b.InOrder)
include ordered

theorem InOrder.takes_element {around : List Tag}
    (scopes : b.scopes = around.map (declarationsOf ·.written)) (rawName : List Char)
    (written : List (List Char × String)) :
    Takes around b [⟨rawName, written⟩ :: around]
      { b with document := (b.addElement rawName written).2 } := by
  have grown := grown_addElement ordered.current_lt rawName written
  have first {k : Nat} {lineage : List Tag}
      (found : [(⟨rawName, written⟩ : Tag) :: around][k]? = some lineage) :
      k = 0 ∧ lineage = ⟨rawName, written⟩ :: around := by
    cases k with
    | zero => simpa using found.symm
    | succ k => simp at found
  refine ⟨rfl, grown.size, fun i bound => ?_, fun k lineage found => ?_, fun k lineage found => ?_⟩
  · refine ⟨?_, ?_, (grown.parent? i).trans (if_neg bound.ne)⟩
    all_goals rw [element_addElement ordered.current_lt, if_neg bound.ne]
  · obtain ⟨rfl, rfl⟩ := first found
    rw [element_addElement ordered.current_lt, if_pos (Nat.add_zero _), scopes]
    exact bears_resolved rawName written around _ _
  · obtain ⟨rfl, rfl⟩ := first found
    exact .inl ⟨rfl, grown.last⟩

/-- An element and what is read within it. -/
theorem InOrder.takes_within {around : List Tag} {inner : List (List Tag)} {b' : Builder}
    (scopes : b.scopes = around.map (declarationsOf ·.written)) (rawName : List Char)
    (written : List (List Char × String))
    (within : Takes (⟨rawName, written⟩ :: around)
      { document := (b.addElement rawName written).2,
        opened := (b.addElement rawName written).1 :: b.opened } inner b') :
    Takes around b ((⟨rawName, written⟩ :: around) :: inner) { b' with opened := b.opened } := by
  have one := ordered.takes_element scopes rawName written
  have size : (b.addElement rawName written).2.size = b.document.size + 1 := one.size
  have kept := within.kept
  have shift (k : Nat) : (b.addElement rawName written).2.size + k = b.document.size + (k + 1) := by
    omega
  refine ⟨rfl, ?_, fun i bound => ?_, fun k lineage found => ?_, fun k lineage found => ?_⟩
  · rw [within.size, size, List.length_cons]
    omega
  · obtain ⟨name, attributes, parent⟩ := one.kept i bound
    obtain ⟨name', attributes', parent'⟩ := kept i (by rw [size]; omega)
    exact ⟨name'.trans name, attributes'.trans attributes, parent'.trans parent⟩
  · cases k with
    | zero =>
      obtain ⟨name, attributes, _⟩ := kept b.document.size (by rw [size]; omega)
      exact Bears.congr (one.bears 0 lineage found) ⟨name, attributes⟩
    | succ k =>
      have bears := within.bears k lineage found
      rw [shift] at bears
      exact bears
  · cases k with
    | zero =>
      have parent := (kept b.document.size (by rw [size]; omega)).2.2
      rcases one.placed 0 lineage found with ⟨outer, within⟩ | ⟨j, less, _⟩
      · exact .inl ⟨outer, parent.trans within⟩
      · omega
    | succ k =>
      have placed := within.placed k lineage found
      rw [shift] at placed
      rcases placed with ⟨outer, parent⟩ | ⟨j, less, found, parent⟩
      · exact .inr ⟨0, Nat.succ_pos k, congrArg some outer.symm, parent⟩
      · exact .inr ⟨j + 1, Nat.succ_lt_succ less, found, by rw [parent, shift]⟩

theorem InOrder.takes_characters (around : List Tag) (content : String) :
    Takes around b [] (b.addText content) := by
  have alike := alike_addText ordered.current_lt content
  refine .nothing (b.opened_addText content) alike.size fun i _ => ?_
  rw [alike.parent?]
  unfold Builder.addText
  split
  next => exact ⟨rfl, rfl, rfl⟩
  next =>
    rw [element_addChild]
    split <;> exact ⟨rfl, rfl, rfl⟩

end Runs

/-- Nested events are read, and each element bears the names that its tag has in the scope of the
tags around it. -/
theorem run_of_nested {around : List Tag} {events : List Event} {lineages : List (List Tag)}
    (nested : Nested around events lineages) {b : Builder} (ordered : b.InOrder)
    (scopes : b.scopes = around.map (declarationsOf ·.written)) :
    ∃ b', events.foldlM Builder.step b = .ok b' ∧ b'.InOrder ∧ Takes around b lineages b' := by
  induction nested generalizing b with
  | nothing => exact ⟨b, rfl, ordered, .nothing rfl rfl fun _ _ => ⟨rfl, rfl, rfl⟩⟩
  | skipped _ ih =>
    obtain ⟨b', ran, ordered', takes⟩ := ih ordered scopes
    exact ⟨b', foldlM_cons_eq_ok_iff.mpr ⟨b, .skipped, ran⟩, ordered', takes⟩
  | @characters around e content rest lineages read _ ih =>
    have stepped : b.Stepped e (b.addText content) := .characters read
    have next := ordered.takes_characters around content
    have same : (b.addText content).scopes = b.scopes := by rw [Builder.scopes, next.opened]; rfl
    obtain ⟨b', ran, ordered', takes⟩ :=
      ih (ordered.step (step_eq_ok_iff.mpr stepped)) (same.trans scopes)
    exact ⟨b', foldlM_cons_eq_ok_iff.mpr ⟨_, stepped, ran⟩, ordered', next.trans takes⟩
  | @empty around name text written rest lineages read _ ih =>
    have stepped : b.Stepped (.empty name text) _ := .empty read
    have next := ordered.takes_element scopes name written
    obtain ⟨b', ran, ordered', takes⟩ := ih (ordered.step (step_eq_ok_iff.mpr stepped)) scopes
    exact ⟨b', foldlM_cons_eq_ok_iff.mpr ⟨_, stepped, ran⟩, ordered', next.trans takes⟩
  | @element around name text written content rest inner lineages read _ _ ihWithin ih =>
    have stepped : b.Stepped (.opening name text) _ := .opening read
    have ordered₁ := ordered.step (step_eq_ok_iff.mpr stepped)
    have inside : Builder.scopes
        { document := (b.addElement name written).2,
          opened := (b.addElement name written).1 :: b.opened } =
          (⟨name, written⟩ :: around : List Tag).map (declarationsOf ·.written) :=
      congrArg (declarationsOf written :: ·) scopes
    obtain ⟨b₁, ran₁, ordered₂, takes₁⟩ := ihWithin ordered₁ inside
    have closed : b₁.Stepped (.closing name) { b₁ with opened := b.opened } :=
      @Stepped.closing b₁ (b.addElement name written).1 b.opened takes₁.opened
    obtain ⟨b', ran, ordered', takes⟩ := ih (ordered₂.step (step_eq_ok_iff.mpr closed)) scopes
    refine ⟨b', ?_, ordered', (ordered.takes_within scopes name written takes₁).trans takes⟩
    rw [List.cons_append]
    refine foldlM_cons_eq_ok_iff.mpr ⟨_, stepped, ?_⟩
    rw [List.foldlM_append, ran₁]
    exact foldlM_cons_eq_ok_iff.mpr ⟨_, closed, ran⟩

end Builder

section Nesting

theorem Nested.rebase {around : List Tag} {events : List Event} {lineages : List (List Tag)}
    (nested : Nested around events lineages) (others : List Tag) :
    ∃ rebased, Nested others events rebased := by
  induction nested generalizing others with
  | nothing => exact ⟨[], .nothing⟩
  | skipped _ ih =>
    obtain ⟨rebased, nested⟩ := ih others
    exact ⟨rebased, .skipped nested⟩
  | characters read _ ih =>
    obtain ⟨rebased, nested⟩ := ih others
    exact ⟨rebased, .characters read nested⟩
  | empty read _ ih =>
    obtain ⟨rebased, nested⟩ := ih others
    exact ⟨_, .empty read nested⟩
  | @element around name text written _ _ _ _ read _ _ ihWithin ih =>
    obtain ⟨inner, within⟩ := ihWithin (⟨name, written⟩ :: others)
    obtain ⟨rebased, nested⟩ := ih others
    exact ⟨_, .element read within nested⟩

/-- Events close open elements, given by their names from the innermost on, and what they close last
is followed by nested events. -/
inductive Unwinds : List (List Char) → List Event → Prop
  | done {events : List Event} {lineages : List (List Tag)} (nested : Nested [] events lineages) :
      Unwinds [] events
  | close {name : List Char} {names : List (List Char)} {content rest : List Event}
      {inner : List (List Tag)} (within : Nested [] content inner) (onward : Unwinds names rest) :
      Unwinds (name :: names) (content ++ .closing name :: rest)

/-- Nested events may stand in front. -/
theorem Unwinds.behind {names : List (List Char)} {events : List Event}
    (unwinds : Unwinds names events) (front : List Event)
    (join : ∀ {events lineages}, Nested [] events lineages →
      ∃ whole, Nested [] (front ++ events) whole) : Unwinds names (front ++ events) := by
  cases unwinds with
  | done nested =>
    obtain ⟨whole, nested⟩ := join nested
    exact .done nested
  | close within onward =>
    obtain ⟨whole, nested⟩ := join within
    rw [← List.append_assoc]
    exact .close nested onward

theorem unwinds_of_run {b b' : Builder} {events : List Event}
    (ran : events.foldlM Builder.step b = .ok b') (closed : b'.opened = []) :
    Unwinds (b.opened.map (·.rawName)) events := by
  induction events generalizing b with
  | nil =>
    cases ran
    rw [closed]
    exact .done .nothing
  | cons e rest ih =>
    obtain ⟨next, stepped, ran⟩ := Builder.foldlM_cons_eq_ok_iff.mp ran
    have unwinds := ih ran
    cases stepped with
    | @opening name text written read =>
      cases unwinds with
      | @close _ _ content rest inner within onward =>
        have join {events : List Event} {lineages : List (List Tag)}
            (nested : Nested [] events lineages) :
            ∃ whole, Nested []
              ((.opening name text :: content ++ [.closing name]) ++ events) whole := by
          obtain ⟨rebased, within⟩ := within.rebase [⟨name, written⟩]
          exact ⟨_, by simpa using Nested.element read within nested⟩
        have whole := onward.behind _ join
        simp only [List.append_assoc, List.cons_append, List.nil_append] at whole
        exact whole
    | empty read => exact unwinds.behind [_] fun nested => ⟨_, .empty read nested⟩
    | @closing element left opened =>
      rw [opened]
      exact .close .nothing unwinds
    | @characters e content read =>
      rw [b.opened_addText] at unwinds
      exact unwinds.behind [_] fun nested => ⟨_, .characters read nested⟩
    | skipped => exact unwinds.behind [_] fun nested => ⟨_, .skipped nested⟩

/-- Events that are read to their end are nested. -/
theorem nested_of_run {b' : Builder} {events : List Event}
    (ran : events.foldlM Builder.step {} = .ok b') (closed : b'.opened = []) :
    ∃ lineages, Nested [] events lineages := by
  cases unwinds_of_run ran closed with
  | done nested => exact ⟨_, nested⟩

end Nesting

/-- A tag whose attributes are replaced by others. -/
inductive Retagged : Event → Event → Prop
  | opening {name text text' : List Char} (read : (attributesOf text').isSome) :
      Retagged (.opening name text) (.opening name text')
  | empty {name text text' : List Char} (read : (attributesOf text').isSome) :
      Retagged (.empty name text) (.empty name text')

/-- The event is a start tag or an empty tag. -/
def Event.isTag : Event → Bool
  | .opening _ _ | .empty _ _ => true
  | _ => false

namespace Builder

/-- Two documents under construction that differ at most in what lies within the element `m`, and in
what that one declares. -/
structure AlikeOutside (m : Nat) (b b' : Builder) : Prop where
  size : b'.document.size = b.document.size
  parent? : b'.document.parent? = b.document.parent?
  element : ∀ id, ¬ b.document.Within id m → b'.document.element id = b.document.element id
  opened : List.Forall₂ (fun o o' : Open =>
    o'.id = o.id ∧ o'.rawName = o.rawName ∧ (o.id ≠ m → o'.declared = o.declared))
    b.opened b'.opened

theorem AlikeOutside.current {m : Nat} {b b' : Builder} (alike : AlikeOutside m b b') :
    b'.current = b.current := by
  have opened := alike.opened
  unfold Builder.current
  generalize b.opened = l, b'.opened = l' at opened
  cases opened with
  | nil => rfl
  | cons same _ => exact same.1

theorem InOrder.within_opened {b : Builder} (ordered : b.InOrder) {o : Open} (mem : o ∈ b.opened) :
    b.document.Within b.current o.id := by
  have reached {first : Nat} {rest : List Nat}
      (nested : (first :: rest).IsChain fun inner outer => b.document.parent? inner = some outer)
      {id : Nat} (mem : id ∈ first :: rest) : b.document.Within first id := by
    induction rest generalizing first with
    | nil => exact List.mem_singleton.mp mem ▸ .refl
    | cons outer rest ih =>
      rw [List.isChain_cons_cons] at nested
      rcases List.mem_cons.mp mem with same | mem
      · exact same ▸ .refl
      · exact (ih nested.2 mem).head nested.1
  obtain ⟨rest, whole⟩ := b.exists_stack_eq
  have stacked : o.id ∈ b.stack := List.mem_append_left _ (List.mem_map_of_mem mem)
  rw [whole] at stacked
  exact reached (whole ▸ ordered.nested) stacked

section Outside
variable {m : Nat} {b b' : Builder} (alike : AlikeOutside m b b') (ordered : b.InOrder)
include alike ordered

theorem AlikeOutside.scopes (outside : ¬ b.document.Within b.current m) : b'.scopes = b.scopes := by
  have other (o : Open) (mem : o ∈ b.opened) : o.id ≠ m := fun same =>
    outside (same ▸ ordered.within_opened mem)
  have opened := alike.opened
  unfold Builder.scopes
  generalize b.opened = l, b'.opened = l' at opened other
  induction opened with
  | nil => rfl
  | cons same _ ih =>
    rw [List.map_cons, List.map_cons, same.2.2 (other _ (by simp)),
      ih fun o mem => other o (by simp [mem])]

/-- An element that is added to both is the same in both, unless it lies within `m`. -/
theorem AlikeOutside.addElement (rawName : List Char) (written : List (List Char × String)) :
    AlikeOutside m { b with document := (b.addElement rawName written).2 }
      { b' with document := (b'.addElement rawName written).2 } := by
  have bound := ordered.current_lt
  have current := alike.current
  have bound' : b'.current < b'.document.size := by rw [current, alike.size]; exact bound
  have grown := grown_addElement bound rawName written
  have grown' := grown_addElement bound' rawName written
  refine ⟨?_, funext fun i => ?_, fun id outside => ?_, alike.opened⟩
  · exact (grown'.size.trans (congrArg (· + 1) alike.size)).trans grown.size.symm
  · exact (grown'.parent? i).trans (by rw [grown.parent?, alike.parent?, alike.size, current])
  · have outside : ¬ (b.addElement rawName written).2.Within id m := outside
    change (b'.addElement rawName written).2.element id =
      (b.addElement rawName written).2.element id
    rw [element_addElement bound', element_addElement bound, alike.size, current]
    by_cases last : id = b.document.size
    · have around : ¬ b.document.Within b.current m := fun within =>
        outside (last ▸ (grown.within within).head grown.last)
      rw [if_pos last, if_pos last, alike.scopes ordered around]
    · rw [if_neg last, if_neg last, alike.element id fun within => outside (grown.within within)]

theorem AlikeOutside.addText (content : String) :
    AlikeOutside m (b.addText content) (b'.addText content) := by
  have bound := ordered.current_lt
  have current := alike.current
  have bound' : b'.current < b'.document.size := by rw [current, alike.size]; exact bound
  have text := alike_addText bound content
  have text' := alike_addText bound' content
  refine ⟨?_, ?_, fun id outside => ?_, ?_⟩
  · rw [text'.size, alike.size, text.size]
  · rw [text'.parent?, alike.parent?, text.parent?]
  · rw [text.within_eq] at outside
    have same := alike.element id outside
    have lists := alike.opened
    unfold Builder.addText
    generalize b.opened = l, b'.opened = l' at lists
    cases lists with
    | nil => exact same
    | cons first _ => simp only [element_addChild, first.1, same, alike.size]
  · rw [opened_addText, opened_addText]
    exact alike.opened

/-- What an event does to one of two documents that are alike outside an element, it does to the
other. -/
theorem AlikeOutside.stepped {e : Event} {next : Builder} (stepped : b.Stepped e next) :
    ∃ next', b'.Stepped e next' ∧ AlikeOutside m next next' := by
  have lists := alike.opened
  cases stepped with
  | @opening name text written read =>
    have grown := alike.addElement ordered name written
    refine ⟨_, .opening read, grown.size, grown.parent?, grown.element,
      .cons ⟨alike.size, rfl, ?_⟩ lists⟩
    exact fun _ => rfl
  | empty read => exact ⟨_, .empty read, alike.addElement ordered _ _⟩
  | @closing element rest opened =>
    rw [opened] at lists
    generalize whole : b'.opened = l' at lists
    cases lists with
    | @cons _ element' _ rest' same left =>
      have closing : b'.Stepped (.closing element'.rawName) { b' with opened := rest' } :=
        .closing whole
      exact ⟨{ b' with opened := rest' }, same.2.1 ▸ closing, alike.size, alike.parent?,
        alike.element, left⟩
  | characters read => exact ⟨_, .characters read, alike.addText ordered _⟩
  | skipped => exact ⟨b', .skipped, alike⟩

end Outside

theorem AlikeOutside.run {m : Nat} {b b' last : Builder} {events : List Event}
    (alike : AlikeOutside m b b') (ordered : b.InOrder)
    (ran : events.foldlM Builder.step b = .ok last) :
    ∃ last', events.foldlM Builder.step b' = .ok last' ∧ AlikeOutside m last last' := by
  induction events generalizing b b' with
  | nil =>
    cases ran
    exact ⟨b', rfl, alike⟩
  | cons e rest ih =>
    obtain ⟨next, stepped, ran⟩ := foldlM_cons_eq_ok_iff.mp ran
    obtain ⟨next', stepped', alike⟩ := alike.stepped ordered stepped
    obtain ⟨last', ran', alike⟩ := ih alike (ordered.step (step_eq_ok_iff.mpr stepped)) ran
    exact ⟨last', foldlM_cons_eq_ok_iff.mpr ⟨next', stepped', ran'⟩, alike⟩

/-- Other attributes on a tag make no difference outside its element. -/
theorem alikeOutside_retagged {b next : Builder} (ordered : b.InOrder) {e e' : Event}
    (other : Retagged e e') (stepped : b.Stepped e next) :
    ∃ next', b.Stepped e' next' ∧ AlikeOutside b.document.size next next' := by
  have bound := ordered.current_lt
  have same (o : Open) : o.id = o.id ∧ o.rawName = o.rawName ∧
      (o.id ≠ b.document.size → o.declared = o.declared) := ⟨rfl, rfl, fun _ => rfl⟩
  have element (name : List Char) (written written' : List (List Char × String)) :
      AlikeOutside b.document.size { b with document := (b.addElement name written).2 }
        { b with document := (b.addElement name written').2 } := by
    have grown := grown_addElement bound name written
    have grown' := grown_addElement bound name written'
    refine ⟨grown'.size.trans grown.size.symm, funext fun i => ?_, fun id outside => ?_,
      List.forall₂_same.mpr fun o _ => same o⟩
    · exact (grown'.parent? i).trans (grown.parent? i).symm
    · have last : id ≠ b.document.size := fun last => outside (last ▸ .refl)
      change (b.addElement name written').2.element id = (b.addElement name written).2.element id
      rw [element_addElement bound, element_addElement bound, if_neg last, if_neg last]
  cases other with
  | @opening name text text' read' =>
    obtain ⟨written', read'⟩ := Option.isSome_iff_exists.mp read'
    cases stepped with
    | @opening _ _ written read =>
      have alike := element name written written'
      exact ⟨_, .opening read', alike.size, alike.parent?, alike.element,
        .cons ⟨rfl, rfl, fun marked => absurd rfl marked⟩ alike.opened⟩
    | characters read => cases read
  | empty read' =>
    obtain ⟨written', read'⟩ := Option.isSome_iff_exists.mp read'
    cases stepped with
    | empty read => exact ⟨_, .empty read', element _ _ _⟩
    | characters read => cases read

theorem size_run {b b' : Builder} {events : List Event} (ordered : b.InOrder)
    (ran : events.foldlM Builder.step b = .ok b') :
    b'.document.size = b.document.size + events.countP Event.isTag := by
  induction events generalizing b with
  | nil => cases ran; rfl
  | cons e rest ih =>
    obtain ⟨next, stepped, ran⟩ := foldlM_cons_eq_ok_iff.mp ran
    have bound := ordered.current_lt
    have size : next.document.size = b.document.size + if e.isTag then 1 else 0 := by
      cases stepped with
      | opening read => exact (grown_addElement bound _ _).size
      | empty read => exact (grown_addElement bound _ _).size
      | closing opened => rfl
      | characters read =>
        have untagged : e.isTag = false := by
          cases e with
          | text | cdata => rfl
          | _ => cases read
        rw [(alike_addText bound _).size, untagged]
        rfl
      | skipped => rfl
    rw [ih (ordered.step (step_eq_ok_iff.mpr stepped)) ran, size, List.countP_cons]
    omega

end Builder

namespace Document

theorem root?_isSome_iff {d : Document} (ordered : d.InOrder) : d.root?.isSome ↔ 1 < d.size := by
  rw [root?, List.isSome_head?]
  constructor
  · intro some
    obtain ⟨child, mem⟩ := List.exists_mem_of_ne_nil _ some
    have found := ordered.mem_childElements_iff.mp mem
    have := ordered.parent_lt found
    have := lt_size_of_parent? found
    omega
  · intro bound
    obtain ⟨p, found, _⟩ := ordered.next bound
    have below := ordered.parent_lt found
    obtain rfl : p = documentId := by
      unfold documentId
      omega
    exact List.ne_nil_of_mem (ordered.mem_childElements_iff.mpr found)

/-- Other attributes on a tag make no difference to the elements that are not within its element. -/
theorem ofEvents_retagged {before after : List Event} {e e' : Event} {d : Document}
    (other : Retagged e e') (read : ofEvents (before ++ e :: after) = .ok d) :
    ∃ d', ofEvents (before ++ e' :: after) = .ok d' ∧ d'.size = d.size ∧
      ∀ id, ¬ d.Within id (before.countP Event.isTag + 1) → d'.element id = d.element id := by
  obtain ⟨last, ran, closed, rfl, rooted⟩ := ofEvents_eq_ok_iff.mp read
  rw [List.foldlM_append] at ran
  cases start : before.foldlM Builder.step {} with
  | error fault =>
    rw [start] at ran
    cases ran
  | ok b =>
    rw [start] at ran
    have ordered := Builder.inOrder_start.run start
    obtain ⟨next, stepped, ran⟩ := Builder.foldlM_cons_eq_ok_iff.mp ran
    obtain ⟨next', stepped', alike⟩ := Builder.alikeOutside_retagged ordered other stepped
    obtain ⟨last', ran', alike⟩ :=
      alike.run (ordered.step (Builder.step_eq_ok_iff.mpr stepped)) ran
    have whole' : (before ++ e' :: after).foldlM Builder.step {} = .ok last' := by
      rw [List.foldlM_append, start]
      exact Builder.foldlM_cons_eq_ok_iff.mpr ⟨next', stepped', ran'⟩
    have ordered' := Builder.inOrder_start.run whole'
    have closed' : last'.opened = [] := by
      have lists := alike.opened
      rw [closed] at lists
      exact List.forall₂_nil_left_iff.mp lists
    have rooted' : last'.document.root?.isSome := by
      rw [root?_isSome_iff ordered'.document, alike.size,
        ← root?_isSome_iff (ordered.step (Builder.step_eq_ok_iff.mpr stepped) |>.run ran).document]
      exact rooted
    refine ⟨last'.document, ofEvents_eq_ok_iff.mpr ⟨last', whole', closed', rfl, rooted'⟩,
      alike.size, fun id outside => alike.element id ?_⟩
    have number := Builder.size_run Builder.inOrder_start start
    rw [Nat.add_comm] at outside
    exact number ▸ outside

/-- Events give a document exactly if they are nested and there is an element. The names on its
elements then have the namespaces that the nearest declarations on the element and around it give
them, and the declarations on an element make no difference but within it. -/
theorem namespaces_from_nearest_declarations (events : List Event) :
    ((∃ d, ofEvents events = .ok d) ↔ ∃ lineages, Nested [] events lineages ∧ lineages ≠ []) ∧
    ∀ d, ofEvents events = .ok d →
      (∀ lineages, Nested [] events lineages → d.size = lineages.length + 1 ∧
        ∀ k lineage, lineages[k]? = some lineage → Bears (d.element (k + 1)) lineage ∧
          (lineage.tail = [] ∧ d.parent? (k + 1) = some documentId ∨
            ∃ j < k, lineages[j]? = some lineage.tail ∧ d.parent? (k + 1) = some (j + 1))) ∧
      ∀ before e after e', events = before ++ e :: after → Retagged e e' →
        ∃ d', ofEvents (before ++ e' :: after) = .ok d' ∧ d'.size = d.size ∧
          ∀ id, ¬ d.Within id (before.countP Event.isTag + 1) → d'.element id = d.element id := by
  have taken {lineages : List (List Tag)} (nested : Nested [] events lineages) :
      ∃ b, events.foldlM Builder.step {} = .ok b ∧ b.InOrder ∧ Builder.Takes [] {} lineages b :=
    Builder.run_of_nested nested Builder.inOrder_start rfl
  refine ⟨⟨?_, ?_⟩, fun d read => ⟨fun lineages nested => ?_, ?_⟩⟩
  · rintro ⟨d, read⟩
    obtain ⟨b, ran, closed, rfl, rooted⟩ := ofEvents_eq_ok_iff.mp read
    obtain ⟨lineages, nested⟩ := nested_of_run ran closed
    obtain ⟨b', ran', ordered, takes⟩ := taken nested
    obtain rfl : b = b' := Except.ok.inj (ran.symm.trans ran')
    refine ⟨lineages, nested, fun none => ?_⟩
    have single : b.document.size = 1 := by rw [takes.size, none]; rfl
    have := (root?_isSome_iff ordered.document).mp rooted
    omega
  · rintro ⟨lineages, nested, some⟩
    obtain ⟨b, ran, ordered, takes⟩ := taken nested
    have length := List.length_pos_iff.mpr some
    have size : b.document.size = 1 + lineages.length := takes.size
    have rooted := (root?_isSome_iff ordered.document).mpr (by omega)
    exact ⟨b.document, ofEvents_eq_ok_iff.mpr ⟨b, ran, takes.opened, rfl, rooted⟩⟩
  · obtain ⟨b, ran, ordered, takes⟩ := taken nested
    obtain ⟨b', ran', _, rfl, _⟩ := ofEvents_eq_ok_iff.mp read
    obtain rfl : b = b' := Except.ok.inj (ran.symm.trans ran')
    have first : ({} : Builder).document.size = 1 := rfl
    have bears := takes.bears
    have placed := takes.placed
    rw [first] at bears placed
    refine ⟨takes.size.trans (Nat.add_comm _ _), fun k lineage found => ?_⟩
    simp only [Nat.add_comm 1] at bears placed
    exact ⟨bears k lineage found, placed k lineage found⟩
  · rintro before e after e' rfl other
    exact ofEvents_retagged other read

/-- A prefix that an empty tag declares anew stands behind that tag for what it stood for before. -/
theorem redeclared_prefix_restored :
    ∃ d, parse "<p:a xmlns:p='urn:p'><b xmlns:p='urn:q'/><p:c/></p:a>" = .ok d ∧
      (d.element 3).name = ⟨some "urn:p", "c"⟩ ∧
      Bears (d.element 3)
        [⟨"p:c".toList, []⟩, ⟨"p:a".toList, [("xmlns:p".toList, "urn:p")]⟩] ∧
      ∃ d', parse "<p:a xmlns:p='urn:p'><b/><p:c/></p:a>" = .ok d' ∧
        d'.element 3 = d.element 3 := by
  have events : documentEvents "<p:a xmlns:p='urn:p'><b xmlns:p='urn:q'/><p:c/></p:a>" =
      [.opening "p:a".toList " xmlns:p='urn:p'".toList] ++
        .empty "b".toList " xmlns:p='urn:q'".toList ::
          [.empty "p:c".toList [], .closing "p:a".toList] := by decide +kernel
  have others : documentEvents "<p:a xmlns:p='urn:p'><b/><p:c/></p:a>" =
      [.opening "p:a".toList " xmlns:p='urn:p'".toList] ++
        .empty "b".toList [] :: [.empty "p:c".toList [], .closing "p:a".toList] := by decide +kernel
  have outer : attributesOf " xmlns:p='urn:p'".toList = some [("xmlns:p".toList, "urn:p")] := by
    decide +kernel
  have inner : attributesOf " xmlns:p='urn:q'".toList = some [("xmlns:p".toList, "urn:q")] := by
    decide +kernel
  have none : attributesOf [] = some [] := by decide +kernel
  have within : Nested [⟨"p:a".toList, [("xmlns:p".toList, "urn:p")]⟩]
      [.empty "b".toList " xmlns:p='urn:q'".toList, .empty "p:c".toList []]
      [[⟨"b".toList, [("xmlns:p".toList, "urn:q")]⟩, ⟨"p:a".toList, [("xmlns:p".toList, "urn:p")]⟩],
        [⟨"p:c".toList, []⟩, ⟨"p:a".toList, [("xmlns:p".toList, "urn:p")]⟩]] :=
    .empty inner (.empty none .nothing)
  have nested := Nested.element outer within Nested.nothing
  obtain ⟨d, read⟩ := (namespaces_from_nearest_declarations _).1.mpr ⟨_, nested, nofun⟩
  obtain ⟨bears, apart⟩ := (namespaces_from_nearest_declarations _).2 d read
  obtain ⟨d', read', _, kept⟩ :=
    apart [_] _ _ (.empty "b".toList []) rfl (.empty (by rw [none]; rfl))
  have whole : parse "<p:a xmlns:p='urn:p'><b xmlns:p='urn:q'/><p:c/></p:a>" = .ok d := by
    rw [parse, events]
    exact read
  have found : (parse "<p:a xmlns:p='urn:p'><b xmlns:p='urn:q'/><p:c/></p:a>").map (fun d =>
      ((d.element 3).name, d.descendantsOrSelf 2)) = .ok (⟨some "urn:p", "c"⟩, [2]) := by
    decide +kernel
  rw [whole] at found
  obtain ⟨name, block⟩ := Prod.mk.inj (Except.ok.inj found)
  have outside : ¬ d.Within 3 2 := by
    rw [← (inOrder_of_parse whole).mem_descendantsOrSelf_iff, block]
    decide
  refine ⟨d, whole, name, ((bears _ nested).2 2 _ rfl).1, d', ?_, kept 3 outside⟩
  rw [parse, others]
  exact read'

end Document

end CatalogGraph.Xml
