import CatalogGraph.Proofs.SpelledTags

/-!
Spelled documents: texts and elements may be written in many ways, with sections of plain characters,
tags that close themselves, comments and instructions. Whichever way is taken, reading builds the
same document.
-/
namespace CatalogGraph.Xml

/-- What stands between the tags of an element, or in a document: texts and elements in order. -/
inductive Content where
  | nil
  | text (characters : String) (rest : Content)
  | element (tag : Tag) (within rest : Content)

/-- A text that ends in a mark and does not have it before. -/
def EndsIn (mark body : List Char) : Prop := upTo mark (body ++ mark) = some (body, [])

/-- Comments and instructions. -/
inductive IsAside : List Char → Prop
  | comment {body} (ends : EndsIn ['-', '-', '>'] body) :
      IsAside ('<' :: '!' :: '-' :: '-' :: (body ++ ['-', '-', '>']))
  | instruction {body} (first : body.head? ≠ some '>') (ends : EndsIn ['?', '>'] body) :
      IsAside ('<' :: '?' :: (body ++ ['?', '>']))

/-- A text spells content. -/
inductive Content.Spells : Content → List Char → Prop
  | nil : Spells .nil []
  | text {characters raw rest cs} (filled : characters ≠ "")
      (escapes : Escapes characters.toList raw) (onward : Spells rest cs) :
      Spells (.text characters rest) (raw ++ cs)
  | cdata {body rest cs} (ends : EndsIn [']', ']', '>'] body) (onward : Spells rest cs) :
      Spells (.text (String.ofList body) rest)
        ('<' :: '!' :: '[' :: ("CDATA[".toList ++ (body ++ ([']', ']', '>'] ++ cs))))
  | aside {content aside cs} (passed : IsAside aside) (onward : Spells content cs) :
      Spells content (aside ++ cs)
  | element {tag text gap within rest inner cs} (spelt : tag.Spells text) (blank : IsGap gap)
      (inside : Spells within inner) (onward : Spells rest cs) :
      Spells (.element tag within rest)
        ('<' :: (tag.rawName ++ (text ++ '>' :: (inner ++
          '<' :: '/' :: (tag.rawName ++ (gap ++ '>' :: cs))))))
  | empty {tag text rest cs} (spelt : tag.Spells text) (onward : Spells rest cs) :
      Spells (.element tag .nil rest) ('<' :: (tag.rawName ++ (text ++ '/' :: '>' :: cs)))

/-! ### Writing -/

namespace Content

/-- Content as text without comments, instructions and tags that close themselves. -/
def written : Content → List Char
  | .nil => []
  | .text characters rest => escape characters ++ rest.written
  | .element tag within rest =>
    '<' :: (tag.rawName ++ (tag.text ++ '>' :: (within.written ++
      '<' :: '/' :: (tag.rawName ++ '>' :: rest.written))))

/-- Content with names in its tags and no empty texts. -/
def IsWritable : Content → Prop
  | .nil => True
  | .text characters rest => characters ≠ "" ∧ rest.IsWritable
  | .element tag within rest =>
    (IsName tag.rawName ∧ (∀ pair ∈ tag.written, IsName pair.1) ∧
      (tag.written.map (·.1)).Nodup) ∧ within.IsWritable ∧ rest.IsWritable

instance decidableIsWritable : (content : Content) → Decidable content.IsWritable
  | .nil => .isTrue trivial
  | .text characters rest =>
    have := decidableIsWritable rest
    inferInstanceAs (Decidable (characters ≠ "" ∧ rest.IsWritable))
  | .element tag within rest =>
    have := decidableIsWritable within
    have := decidableIsWritable rest
    inferInstanceAs (Decidable ((IsName tag.rawName ∧ (∀ pair ∈ tag.written, IsName pair.1) ∧
      (tag.written.map (·.1)).Nodup) ∧ within.IsWritable ∧ rest.IsWritable))

end Content

theorem spells_written {content : Content} (writable : content.IsWritable) :
    content.Spells content.written := by
  induction content with
  | nil => exact .nil
  | text characters rest ih => exact .text writable.1 (escapes_escape _) (ih writable.2)
  | element tag within rest ihWithin ih =>
    obtain ⟨⟨name, names, distinct⟩, inner, later⟩ := writable
    exact @Content.Spells.element tag tag.text [] within rest _ _
      ⟨name, spellsAttributes_text names, distinct⟩ nofun (ihWithin inner) (ih later)

/-! ### Marks -/

section Marks
variable {mark cs body left rest : List Char}

theorem eq_of_upTo (found : upTo mark cs = some (body, left)) : cs = body ++ (mark ++ left) := by
  induction cs generalizing body with
  | nil => cases found
  | cons c more ih =>
    rw [upTo] at found
    split at found
    next starts =>
      cases found
      rw [List.nil_append]
      exact Text.afterStart?_eq_some_iff.mp starts
    next =>
      obtain ⟨⟨_, _⟩, later, same⟩ := Option.map_eq_some_iff.mp found
      cases same
      rw [List.cons_append, ← ih later]

/-- The first occurrence of a mark stays the first one, whatever stands behind it. -/
theorem upTo_append (found : upTo mark cs = some (body, left)) (more : List Char) :
    upTo mark (cs ++ more) = some (body, left ++ more) := by
  induction cs generalizing body with
  | nil => cases found
  | cons c rest ih =>
    rw [upTo] at found
    rw [List.cons_append, upTo]
    split at found
    next starts =>
      cases found
      have onward : Text.afterStart? mark (c :: (rest ++ more)) = some (left ++ more) := by
        rw [Text.afterStart?_eq_some_iff, ← List.cons_append,
          Text.afterStart?_eq_some_iff.mp starts, List.append_assoc]
      rw [onward]
    next absent =>
      obtain ⟨⟨_, _⟩, later, same⟩ := Option.map_eq_some_iff.mp found
      cases same
      have onward : Text.afterStart? mark (c :: (rest ++ more)) = none := by
        refine Option.eq_none_iff_forall_ne_some.mpr fun other starts => ?_
        -- the mark fits into the text, so it would be found at its start
        have room := congrArg List.length (eq_of_upTo later)
        simp only [List.length_append] at room
        have marked : mark <+: c :: (rest ++ more) :=
          ⟨other, (Text.afterStart?_eq_some_iff.mp starts).symm⟩
        have begun : c :: rest <+: c :: (rest ++ more) := ⟨more, rfl⟩
        have first : mark <+: c :: rest :=
          List.prefix_of_prefix_length_le marked begun (by rw [List.length_cons]; omega)
        obtain ⟨tail, whole⟩ := first
        rw [Text.afterStart?_eq_some_iff.mpr whole.symm] at absent
        cases absent
      rw [onward, ih later]
      rfl

theorem EndsIn.upTo_append (ends : EndsIn mark body) (rest : List Char) :
    upTo mark (body ++ (mark ++ rest)) = some (body, rest) := by
  have found := Xml.upTo_append ends rest
  rwa [List.append_assoc, List.nil_append] at found

theorem eventsOf_aside (passed : IsAside cs) (rest : List Char) :
    eventsOf (cs ++ rest) = .skipped :: eventsOf rest := by
  cases passed with
  | @comment body ends =>
    have found := ends.upTo_append rest
    rw [List.cons_append, List.cons_append, List.cons_append, List.cons_append, List.append_assoc]
    exact eventsOf_markup (by rw [markup, declarationEvent, found]; rfl)
  | @instruction body first ends =>
    have found := ends.upTo_append rest
    rw [List.cons_append, List.cons_append, List.append_assoc]
    have opens : ∃ c more, body ++ (['?', '>'] ++ rest) = c :: more ∧ c ≠ '>' := by
      cases body with
      | nil => exact ⟨'?', _, rfl, by decide⟩
      | cons c more => exact ⟨c, _, rfl, by simpa using first⟩
    obtain ⟨c, more, whole, other⟩ := opens
    rw [whole] at found ⊢
    refine eventsOf_markup ?_
    rw [markup, found]
    · rfl
    · rintro _ same
      cases same
      exact other rfl

theorem eventsOf_cdata (ends : EndsIn [']', ']', '>'] body) (rest : List Char) :
    eventsOf ('<' :: '!' :: '[' :: ("CDATA[".toList ++ (body ++ ([']', ']', '>'] ++ rest)))) =
      .cdata body :: eventsOf rest := by
  refine eventsOf_markup ?_
  have starts : Text.afterStart? "CDATA[".toList
      ("CDATA[".toList ++ (body ++ ([']', ']', '>'] ++ rest))) =
        some (body ++ ([']', ']', '>'] ++ rest)) := Text.afterStart?_eq_some_iff.mpr rfl
  rw [markup, declarationEvent, starts]
  dsimp only
  rw [ends.upTo_append]
  rfl

end Marks

/-! ### Reading -/

namespace Builder
variable {b b' : Builder} {e : Event} {cs raw : List Char}

/-- A document under construction with content that is added to the innermost open element. -/
def add (b : Builder) : Content → Builder
  | .nil => b
  | .text characters rest => (b.addText characters).add rest
  | .element tag within rest =>
    let (element, document) := b.addElement tag.rawName tag.written
    let filled := add { document, opened := element :: b.opened } within
    add { filled with opened := b.opened } rest

theorem opened_add (b : Builder) (content : Content) : (b.add content).opened = b.opened := by
  induction content generalizing b with
  | nil => rfl
  | text characters rest ih => rw [add, ih, opened_addText]
  | element tag within rest _ ih => rw [add, ih]

theorem foldlM_of_step (stepped : b.step e = .ok b') (rest : List Event) :
    (e :: rest).foldlM Builder.step b = rest.foldlM Builder.step b' := by
  rw [List.foldlM_cons, stepped]
  rfl

theorem appendChild_text (first second : String) (children : List Child) :
    appendChild (.text second) (appendChild (.text first) children) =
      appendChild (.text (first ++ second)) children := by
  have joins (front : List Child) (before more : String) :
      appendChild (.text more) (front ++ [.text before]) = front ++ [.text (before ++ more)] := by
    simp [appendChild]
  rcases List.eq_nil_or_concat' children with rfl | ⟨front, last, rfl⟩
  · exact joins [] first second
  · cases last with
    | text before => rw [joins, joins, joins, String.append_assoc]
    | element id =>
      have ends (more : String) : appendChild (.text more) (front ++ [.element id]) =
          front ++ [.element id] ++ [.text more] := by
        simp [appendChild]
      rw [ends, ends, joins]

theorem addChild_addChild (d : Document) (id : Nat) (first second : String) :
    addChild (addChild d id (.text first)) id (.text second) =
      addChild d id (.text (first ++ second)) := by
  unfold addChild
  congr 1
  refine Array.ext (by simp) fun i _ _ => ?_
  simp only [Array.getElem_modify]
  split
  next => rw [appendChild_text]
  next => rfl

theorem addText_addText (b : Builder) (first second : String) :
    (b.addText first).addText second = b.addText (first ++ second) := by
  rcases opened : b.opened with _ | ⟨element, rest⟩
  · simp [addText, opened]
  · simp [addText, opened, addChild_addChild]

/-- Text that is read joins the text behind it, which ends at a bracket or is faulty in itself. -/
theorem foldlM_text (escapes : Escapes cs raw) (filled : cs ≠ []) (rest : List Char) :
    (eventsOf (raw ++ rest)).foldlM Builder.step b =
      (eventsOf rest).foldlM Builder.step (b.addText (String.ofList cs)) := by
  obtain ⟨c, more, rfl⟩ := List.exists_cons_of_ne_nil (escapes.filled filled)
  obtain ⟨first, plain⟩ := List.forall_mem_cons.mp escapes.not_bracket
  have inside : ∀ d ∈ more, decide (d ≠ '<') = true := fun d mem => decide_eq_true (plain d mem)
  have whole : eventsOf (c :: more ++ rest) =
      .text (c :: more ++ rest.takeWhile (· ≠ '<')) :: eventsOf (rest.dropWhile (· ≠ '<')) := by
    rw [List.cons_append, eventsOf, if_neg first, List.takeWhile_append_of_pos inside,
      List.dropWhile_append_of_pos inside]
    rfl
  have read := escapes.unescape_append (rest.takeWhile (· ≠ '<'))
  rw [whole]
  rcases rest with _ | ⟨d, rest⟩
  · exact foldlM_of_step (by simp [Builder.step, escapes.unescape_eq]) _
  · by_cases bracket : d = '<'
    · subst bracket
      exact foldlM_of_step (by simp [Builder.step, escapes.unescape_eq]) _
    · have next : eventsOf (d :: rest) =
          .text ((d :: rest).takeWhile (· ≠ '<')) ::
            eventsOf ((d :: rest).dropWhile (· ≠ '<')) := by
        rw [eventsOf, if_neg bracket]
        simp [bracket]
      rw [next, List.foldlM_cons, List.foldlM_cons, Builder.step, Builder.step, read]
      cases unescape ((d :: rest).takeWhile (· ≠ '<')) with
      | none => rfl
      | some cs' =>
        rw [Option.map_some]
        dsimp only
        rw [addText_addText, String.ofList_append]

/-- Reading a text that spells content adds the content, whatever stands behind it. -/
theorem foldlM_spells {content : Content} (spells : content.Spells cs) (b : Builder)
    (rest : List Char) : (eventsOf (cs ++ rest)).foldlM Builder.step b =
      (eventsOf rest).foldlM Builder.step (b.add content) := by
  induction spells generalizing b rest with
  | nil => rfl
  | @text characters raw _ _ filled escapes _ ih =>
    have filled : characters.toList ≠ [] := fun none => filled (String.toList_eq_nil_iff.mp none)
    rw [List.append_assoc, foldlM_text escapes filled, ih, String.ofList_toList]
    rfl
  | @cdata body _ cs ends _ ih =>
    have whole :
        '<' :: '!' :: '[' :: ("CDATA[".toList ++ (body ++ ([']', ']', '>'] ++ cs))) ++ rest =
          '<' :: '!' :: '[' :: ("CDATA[".toList ++ (body ++ ([']', ']', '>'] ++ (cs ++ rest)))) := by
      simp
    rw [whole, eventsOf_cdata ends, foldlM_of_step rfl, ih]
    rfl
  | aside passed _ ih =>
    rw [List.append_assoc, eventsOf_aside passed, foldlM_of_step rfl, ih]
  | @element tag text gap within rest' inner cs spelt blank _ _ ihWithin ih =>
    simp only [List.append_assoc, List.cons_append]
    have opening : b.step (.opening tag.rawName text) =
        .ok { document := (b.addElement tag.rawName tag.written).2,
              opened := (b.addElement tag.rawName tag.written).1 :: b.opened } := by
      rw [Builder.step, spelt.attributesOf]
    rw [eventsOf_opening spelt, foldlM_of_step opening, ihWithin, eventsOf_closing spelt.name blank]
    have closing := step_eq_ok_iff.mpr (Stepped.closing (opened_add
      { document := (b.addElement tag.rawName tag.written).2,
        opened := (b.addElement tag.rawName tag.written).1 :: b.opened } within))
    exact (foldlM_of_step closing _).trans (ih _ _)
  | @empty tag text _ _ spelt _ ih =>
    simp only [List.append_assoc, List.cons_append]
    have closed : b.step (.empty tag.rawName text) =
        .ok { b with document := (b.addElement tag.rawName tag.written).2 } := by
      rw [Builder.step, spelt.attributesOf]
    rw [eventsOf_empty spelt, foldlM_of_step closed, ih]
    rfl

end Builder

end CatalogGraph.Xml
