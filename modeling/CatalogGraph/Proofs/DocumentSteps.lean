import CatalogGraph.Proofs.DocumentOrder

/-!
Steps of reading a document: what each event does to the document under construction, and what a
step leaves as it is.
-/
namespace CatalogGraph.Xml
open Relation (ReflTransGen)

/-- The character data of an event. -/
def Event.characters? : Event → Option String
  | .text raw => (unescape raw).map String.ofList
  | .cdata content => some (String.ofList content)
  | _ => none

namespace Builder

/-- What one event does to a document under construction. -/
inductive Stepped (b : Builder) : Event → Builder → Prop
  | opening {name text : List Char} {written : List (List Char × String)}
      (read : attributesOf text = some written) :
      Stepped b (.opening name text)
        { document := (b.addElement name written).2,
          opened := (b.addElement name written).1 :: b.opened }
  | empty {name text : List Char} {written : List (List Char × String)}
      (read : attributesOf text = some written) :
      Stepped b (.empty name text) { b with document := (b.addElement name written).2 }
  | closing {element : Open} {rest : List Open} (opened : b.opened = element :: rest) :
      Stepped b (.closing element.rawName) { b with opened := rest }
  | characters {e : Event} {content : String} (read : e.characters? = some content) :
      Stepped b e (b.addText content)
  | skipped : Stepped b .skipped b

theorem step_eq_ok_iff {b b' : Builder} {e : Event} : b.step e = .ok b' ↔ b.Stepped e b' := by
  constructor
  · intro stepped
    unfold Builder.step at stepped
    split at stepped
    next name text =>
      split at stepped
      next written read => cases stepped; exact .opening read
      next => cases stepped
    next name text =>
      split at stepped
      next written read => cases stepped; exact .empty read
      next => cases stepped
    next name =>
      split at stepped
      next element rest opened =>
        split at stepped
        next same => cases stepped; exact same ▸ .closing opened
        next => cases stepped
      next => cases stepped
    next raw =>
      split at stepped
      next cs read => cases stepped; exact .characters (by simp [Event.characters?, read])
      next => cases stepped
    next content => cases stepped; exact .characters rfl
    next => cases stepped; exact .skipped
    next => cases stepped
  · intro stepped
    cases stepped with
    | opening read => simp [Builder.step, read]
    | empty read => simp [Builder.step, read]
    | closing opened => simp [Builder.step, opened]
    | characters read =>
      cases e with
      | text raw =>
        obtain ⟨cs, found, rfl⟩ := Option.map_eq_some_iff.mp read
        simp [Builder.step, found]
      | cdata content => cases read; rfl
      | _ => cases read
    | skipped => rfl

theorem foldlM_cons_eq_ok_iff {b b' : Builder} {e : Event} {rest : List Event} :
    (e :: rest).foldlM Builder.step b = .ok b' ↔
      ∃ next, b.Stepped e next ∧ rest.foldlM Builder.step next = .ok b' := by
  rw [List.foldlM_cons]
  cases stepped : b.step e with
  | error fault =>
    have none (next : Builder) : ¬ b.Stepped e next := by
      rw [← step_eq_ok_iff, stepped]
      exact nofun
    simp [bind, Except.bind, none]
  | ok next =>
    have exactly (other : Builder) : b.Stepped e other ↔ next = other := by
      rw [← step_eq_ok_iff, stepped, Except.ok.injEq]
    simp [bind, Except.bind, exactly]

/-- An element of a document that got one more element. -/
theorem element_addElement {b : Builder} (bound : b.current < b.document.size)
    (rawName : List Char) (written : List (List Char × String)) (i : Nat) :
    (b.addElement rawName written).2.element i =
      if i = b.document.size then
        { name := resolveName (declarationsOf written :: b.scopes) true rawName
          attributes := plainAttributes (declarationsOf written :: b.scopes) written
          parent := some b.current }
      else { b.document.element i with
        children := (b.document.element i).children ++
          if b.current = i then [.element b.document.size] else [] } := by
  have grown : (b.addElement rawName written).2 =
      addChild (push b.document
        { name := resolveName (declarationsOf written :: b.scopes) true rawName
          attributes := plainAttributes (declarationsOf written :: b.scopes) written
          parent := some b.current }) b.current (.element b.document.size) := rfl
  rw [grown, element_addChild, element_push, size_push]
  by_cases last : i = b.document.size
  · have other : b.current ≠ i := by omega
    simp [last, bound.ne]
  · by_cases here : b.current = i
    · have room : i < b.document.size + 1 := by omega
      simp [last, here, room, appendChild]
    · simp [last, here]

theorem opened_addText (b : Builder) (content : String) :
    (b.addText content).opened = b.opened := by
  unfold addText
  split <;> rfl

theorem current_of_opened {b : Builder} {element : Open} {rest : List Open}
    (opened : b.opened = element :: rest) : b.current = element.id := by
  simp [current, opened]

/-- A document in which elements were added behind those that were there. -/
structure Extends (d d' : Document) : Prop where
  size_le : d.size ≤ d'.size
  parent? : ∀ i < d.size, d'.parent? i = d.parent? i

theorem Extends.refl (d : Document) : Extends d d := ⟨le_rfl, fun _ _ => rfl⟩

theorem Extends.trans {d d' d'' : Document} (first : Extends d d') (second : Extends d' d'') :
    Extends d d'' where
  size_le := first.size_le.trans second.size_le
  parent? i bound :=
    (second.parent? i (bound.trans_le first.size_le)).trans (first.parent? i bound)

theorem Grown.extends {d d' : Document} {p : Nat} (grown : Grown d p d') : Extends d d' where
  size_le := by
    rw [grown.size]
    omega
  parent? i bound := by rw [grown.parent?, if_neg bound.ne]

theorem Alike.extends {d d' : Document} (alike : Alike d d') : Extends d d' where
  size_le := alike.size.ge
  parent? _ _ := by rw [alike.parent?]

/-- New elements change nothing about what lies within what among those before them. -/
theorem Extends.within_iff {d d' : Document} (more : Extends d d') (ordered : d.InOrder)
    {inner outer : Nat} (bound : inner < d.size) :
    d'.Within inner outer ↔ d.Within inner outer := by
  constructor
  · intro within
    revert bound
    induction within using ReflTransGen.head_induction_on with
    | refl => exact fun _ => .refl
    | head found _ ih =>
      intro bound
      rw [more.parent? _ bound] at found
      have := ordered.parent_lt found
      exact .head found (ih (by omega))
  · intro within
    revert bound
    induction within using ReflTransGen.head_induction_on with
    | refl => exact fun _ => .refl
    | head found _ ih =>
      intro bound
      have := ordered.parent_lt found
      rw [← more.parent? _ bound] at found
      exact .head found (ih (by omega))

theorem Stepped.extends {b b' : Builder} {e : Event} (stepped : b.Stepped e b')
    (ordered : b.InOrder) : Extends b.document b'.document := by
  have bound := ordered.current_lt
  cases stepped with
  | opening read => exact (grown_addElement bound _ _).extends
  | empty read => exact (grown_addElement bound _ _).extends
  | closing opened => exact .refl _
  | characters read => exact (alike_addText bound _).extends
  | skipped => exact .refl _

end Builder

namespace Document

theorem ofEvents_eq_ok_iff {events : List Event} {d : Document} :
    ofEvents events = .ok d ↔ ∃ b, events.foldlM Builder.step {} = .ok b ∧ b.opened = [] ∧
      b.document = d ∧ d.root?.isSome := by
  unfold ofEvents
  cases ran : events.foldlM Builder.step {} with
  | error fault => simp [bind, Except.bind]
  | ok b =>
    simp only [bind, Except.bind, Except.ok.injEq, exists_eq_left']
    rcases opened : b.opened with _ | ⟨element, rest⟩
    · rcases root : b.document.root? with _ | id
      · have rootless : b.document = d → d.root? = none := fun same => same ▸ root
        simpa [throw, throwThe, MonadExceptOf.throw] using rootless
      · have rooted : b.document = d → d.root? = some id := fun same => same ▸ root
        simpa [pure, Except.pure] using fun same => by simp [rooted same]
    · simp [throw, throwThe, MonadExceptOf.throw]

end Document
end CatalogGraph.Xml
