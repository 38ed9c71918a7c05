import CatalogGraph.Proofs.NamespaceScopes
import CatalogGraph.Proofs.TokenTexts

/-!
Spelled tags: characters may be written as references, and the parts of a tag with white space and
quotes as one pleases. Whichever way is taken, the tag is read with its name and its attributes.
-/
namespace CatalogGraph.Xml

/-! ### Spellings -/

/-- Characters are written as they are or as references. -/
inductive Escapes : List Char → List Char → Prop
  | nil : Escapes [] []
  | plain {c cs raw} (bracket : c ≠ '<') (ampersand : c ≠ '&') (rest : Escapes cs raw) :
      Escapes (c :: cs) (c :: raw)
  | reference {c name cs raw} (stands : referencedChar? name = some c)
      (closed : ∀ d ∈ name, d ∉ ['<', '&', ';']) (rest : Escapes cs raw) :
      Escapes (c :: cs) ('&' :: (name ++ ';' :: raw))

/-- White space between the parts of a tag, or nothing. -/
def IsGap (cs : List Char) : Prop := ∀ c ∈ cs, isSpace c = true

/-- A character that neither ends a name nor begins other markup. -/
def isNameChar (c : Char) : Bool := !isSpace c && c ∉ ['<', '>', '/', '=', '"', '\'', '!', '?']

/-- The name of an element or of an attribute. -/
structure IsName (name : List Char) : Prop where
  filled : name ≠ []
  chars : ∀ c ∈ name, isNameChar c = true

instance (name : List Char) : Decidable (IsName name) :=
  decidable_of_iff (name ≠ [] ∧ name.all isNameChar = true)
    ⟨fun ⟨filled, chars⟩ => ⟨filled, List.all_eq_true.mp chars⟩,
      fun ⟨filled, chars⟩ => ⟨filled, List.all_eq_true.mpr chars⟩⟩

/-- A value between quotes. -/
inductive Quotes (value : String) : List Char → Prop
  | quoted {q raw} (either : q = '"' ∨ q = '\'') (escapes : Escapes value.toList raw)
      (free : q ∉ raw) : Quotes value (q :: (raw ++ [q]))

/-- The attributes of a tag, each behind white space. -/
inductive SpellsAttributes : List (List Char × String) → List Char → Prop
  | nil {gap} (blank : IsGap gap) : SpellsAttributes [] gap
  | cons {gap key before behind value quoted more text} (blank : IsGap gap) (apart : gap ≠ [])
      (name : IsName key) (left : IsGap before) (right : IsGap behind)
      (quotes : Quotes value quoted) (rest : SpellsAttributes more text) :
      SpellsAttributes ((key, value) :: more)
        (gap ++ (key ++ (before ++ '=' :: (behind ++ (quoted ++ text)))))

/-- A tag without its brackets. -/
structure Tag.Spells (tag : Tag) (text : List Char) : Prop where
  name : IsName tag.rawName
  attributes : SpellsAttributes tag.written text
  distinct : (tag.written.map (·.1)).Nodup

/-! ### Writing -/

/-- A character in text or between quotes. -/
def escapeChar (c : Char) : List Char :=
  if c = '<' then "&lt;".toList
  else if c = '>' then "&gt;".toList
  else if c = '&' then "&amp;".toList
  else if c = '"' then "&quot;".toList
  else if c = '\'' then "&apos;".toList
  else [c]

def escape (s : String) : List Char := s.toList.flatMap escapeChar

/-- A tag without its brackets, its attributes in double quotes. -/
def Tag.text (tag : Tag) : List Char :=
  tag.written.flatMap fun (key, value) => ' ' :: (key ++ '=' :: '"' :: (escape value ++ ['"']))

theorem escapes_escapeChar (c : Char) {cs raw : List Char} (rest : Escapes cs raw) :
    Escapes (c :: cs) (escapeChar c ++ raw) := by
  unfold escapeChar
  split
  next same => exact same ▸ @Escapes.reference _ ['l', 't'] _ _ rfl (by simp) rest
  split
  next same => exact same ▸ @Escapes.reference _ ['g', 't'] _ _ rfl (by simp) rest
  split
  next same => exact same ▸ @Escapes.reference _ ['a', 'm', 'p'] _ _ rfl (by simp) rest
  split
  next same => exact same ▸ @Escapes.reference _ ['q', 'u', 'o', 't'] _ _ rfl (by simp) rest
  split
  next same => exact same ▸ @Escapes.reference _ ['a', 'p', 'o', 's'] _ _ rfl (by simp) rest
  next bracket _ ampersand _ _ => exact .plain bracket ampersand rest

theorem escapes_escape (s : String) : Escapes s.toList (escape s) := by
  unfold escape
  induction s.toList with
  | nil => exact .nil
  | cons c rest ih => exact escapes_escapeChar c ih

theorem quote_not_mem_escape (s : String) : '"' ∉ escape s := by
  intro mem
  obtain ⟨c, -, mem⟩ := List.mem_flatMap.mp mem
  unfold escapeChar at mem
  split_ifs at mem <;> simp_all [eq_comm]

theorem spellsAttributes_text {tag : Tag} (names : ∀ pair ∈ tag.written, IsName pair.1) :
    SpellsAttributes tag.written tag.text := by
  unfold Tag.text
  generalize tag.written = written at names
  induction written with
  | nil => exact .nil nofun
  | cons pair rest ih =>
    obtain ⟨name, names⟩ := List.forall_mem_cons.mp names
    have space : IsGap [' '] := by
      intro c mem
      rw [List.mem_singleton.mp mem]
      rfl
    have quotes : Quotes pair.2 ('"' :: (escape pair.2 ++ ['"'])) :=
      .quoted (.inl rfl) (escapes_escape _) (quote_not_mem_escape _)
    have spelt := @SpellsAttributes.cons [' '] pair.1 [] [] pair.2 _ rest _ space (by simp) name
      nofun nofun quotes (ih names)
    simpa using spelt

/-! ### References -/

section References
variable {cs raw name : List Char}

theorem unescapeFrom_name (closed : ∀ d ∈ name, d ∉ ['<', '&', ';']) (before more : List Char) :
    unescapeFrom (some before) (name ++ ';' :: more) =
      (referencedChar? (before.reverse ++ name)).bind fun c =>
        (unescapeFrom none more).map (c :: ·) := by
  induction name generalizing before with
  | nil => simp [unescapeFrom]
  | cons d rest ih =>
    obtain ⟨first, closed⟩ := List.forall_mem_cons.mp closed
    simp only [List.mem_cons, List.not_mem_nil, or_false, not_or] at first
    rw [List.cons_append, unescapeFrom, if_neg first.2.2, if_neg first.2.1, ih closed]
    simp

theorem Escapes.unescape_append (escapes : Escapes cs raw) (more : List Char) :
    unescape (raw ++ more) = (unescape more).map (cs ++ ·) := by
  unfold unescape
  induction escapes with
  | nil => simp
  | plain _ ampersand _ ih =>
    rw [List.cons_append, unescapeFrom, if_neg ampersand, ih, Option.map_map]
    rfl
  | reference stands closed _ ih =>
    rw [List.cons_append, unescapeFrom, if_pos rfl, List.append_assoc, List.cons_append,
      unescapeFrom_name closed, List.reverse_nil, List.nil_append, stands, Option.bind_some, ih,
      Option.map_map]
    rfl

theorem Escapes.unescape_eq (escapes : Escapes cs raw) : unescape raw = some cs := by
  have whole := escapes.unescape_append []
  rw [List.append_nil] at whole
  simpa [unescape, unescapeFrom] using whole

theorem Escapes.not_bracket (escapes : Escapes cs raw) : ∀ c ∈ raw, c ≠ '<' := by
  induction escapes with
  | nil => exact nofun
  | plain bracket _ _ ih => exact List.forall_mem_cons.mpr ⟨bracket, ih⟩
  | reference _ closed _ ih =>
    refine List.forall_mem_cons.mpr ⟨by decide, List.forall_mem_append.mpr ⟨fun d mem => ?_,
      List.forall_mem_cons.mpr ⟨by decide, ih⟩⟩⟩
    rintro rfl
    exact closed _ mem List.mem_cons_self

theorem Escapes.filled (escapes : Escapes cs raw) (filled : cs ≠ []) : raw ≠ [] := by
  cases escapes with
  | nil => exact absurd rfl filled
  | _ => exact List.cons_ne_nil _ _

end References

/-! ### Tags -/

section Tags
variable {cs raw gap key name text body rest : List Char} {written : List (List Char × String)}

theorem isNameChar_iff {c : Char} : isNameChar c = true ↔
    isSpace c = false ∧ c ∉ ['<', '>', '/', '=', '"', '\'', '!', '?'] := by
  simp [isNameChar]

theorem IsName.not_space (name : IsName key) : ∀ c ∈ key, isSpace c = false :=
  fun c mem => (isNameChar_iff.mp (name.chars c mem)).1

theorem IsName.not_mark (name : IsName key) {c : Char} (mem : c ∈ key) :
    c ∉ ['<', '>', '/', '=', '"', '\'', '!', '?'] :=
  (isNameChar_iff.mp (name.chars c mem)).2

/-- A part of a tag that holds no bracket outside quotes and leaves no quote open. -/
def Passes (part : List Char) : Prop :=
  ∀ rest, tagBody none (part ++ rest) =
    (tagBody none rest).map fun (body, left) => (part ++ body, left)

theorem passes_nil : Passes [] := by
  intro rest
  simp

theorem Passes.append (first : Passes cs) (second : Passes raw) : Passes (cs ++ raw) := by
  intro rest
  rw [List.append_assoc, first, second, Option.map_map]
  congr 1
  funext ⟨body, left⟩
  simp

theorem passes_of_plain (plain : ∀ c ∈ cs, c ∉ ['>', '"', '\'']) : Passes cs := by
  induction cs with
  | nil => exact passes_nil
  | cons c more ih =>
    obtain ⟨first, later⟩ := List.forall_mem_cons.mp plain
    simp only [List.mem_cons, List.not_mem_nil, or_false, not_or] at first
    intro rest
    have quote : (if c = '"' || c = '\'' then some c else none) = none := by simp [first]
    rw [List.cons_append, tagBody, if_neg first.1, quote, ih later, Option.map_map]
    rfl

theorem tagBody_quoted {q : Char} (free : q ∉ raw) (rest : List Char) :
    tagBody (some q) (raw ++ q :: rest) =
      (tagBody none rest).map fun (body, left) => (raw ++ q :: body, left) := by
  induction raw with
  | nil => simp [tagBody]
  | cons c more ih =>
    rw [List.mem_cons, not_or] at free
    rw [List.cons_append, tagBody, if_neg (Ne.symm free.1), ih free.2, Option.map_map]
    rfl

theorem Quotes.passes {value : String} (quotes : Quotes value cs) : Passes cs := by
  obtain ⟨either, escapes, free⟩ := quotes
  rename_i q raw
  intro rest
  have bracket : q ≠ '>' := by
    rintro rfl
    simp at either
  have quote : (if q = '"' || q = '\'' then some q else none) = some q := by simp [either]
  rw [List.cons_append, List.append_assoc, List.singleton_append, tagBody, if_neg bracket, quote,
    tagBody_quoted free, Option.map_map]
  congr 1
  funext found
  obtain ⟨body, left⟩ := found
  simp

theorem IsName.passes (name : IsName key) : Passes key :=
  passes_of_plain fun c mem => by
    have := name.not_mark mem
    simp_all

theorem IsGap.passes (blank : IsGap gap) : Passes gap :=
  passes_of_plain fun c mem => by
    have := blank c mem
    rintro other
    simp only [List.mem_cons, List.not_mem_nil, or_false] at other
    rcases other with rfl | rfl | rfl <;> simp [isSpace] at this

theorem SpellsAttributes.passes (spells : SpellsAttributes written text) : Passes text := by
  induction spells with
  | nil blank => exact blank.passes
  | cons blank _ name left right quotes _ ih =>
    refine blank.passes.append (name.passes.append (left.passes.append ?_))
    have sign : Passes ['='] := passes_of_plain (by simp)
    exact sign.append (right.passes.append (quotes.passes.append ih))

/-! ### Attributes -/

theorem dropWhile_gap (blank : IsGap gap) (first : ∀ c ∈ rest.head?, isSpace c = false) :
    (gap ++ rest).dropWhile isSpace = rest := by
  refine (XPath.stretch_append blank ?_).2
  cases rest with
  | nil => rfl
  | cons c more => simpa using first c rfl

theorem attributeValue?_quotes {value : String} {quoted : List Char} (quotes : Quotes value quoted)
    (blank : IsGap gap) (rest : List Char) : ∃ raw, Escapes value.toList raw ∧
      attributeValue? (gap ++ (quoted ++ rest)) = some (raw, rest) := by
  obtain ⟨either, escapes, free⟩ := quotes
  rename_i q raw
  refine ⟨raw, escapes, ?_⟩
  have first : isSpace q = false := by rcases either with rfl | rfl <;> rfl
  have inside : ∀ c ∈ raw, decide (c ≠ q) = true := fun c mem =>
    decide_eq_true fun same => free (same ▸ mem)
  have ends : (q :: rest).head?.any (fun c => decide (c ≠ q)) = false := by simp
  obtain ⟨taken, left⟩ := XPath.stretch_append inside ends
  have quote : (q = '"' || q = '\'') = true := by simp [either]
  rw [List.cons_append, attributeValue?, dropWhile_gap blank (by simpa using first)]
  simp only [quote, if_true, List.append_assoc, List.singleton_append, taken, left]

theorem attribute?_spelt {value : String} {before behind quoted : List Char} {c : Char}
    (name : IsName (c :: key)) (left : IsGap before) (right : IsGap behind)
    (quotes : Quotes value quoted) (rest : List Char) : ∃ raw, Escapes value.toList raw ∧
      attribute? c (key ++ (before ++ '=' :: (behind ++ (quoted ++ rest)))) =
        some ((c :: key, raw), rest) := by
  obtain ⟨raw, escapes, read⟩ := attributeValue?_quotes quotes right rest
  refine ⟨raw, escapes, ?_⟩
  have inside : ∀ d ∈ key, (! (decide (d = '=') || isSpace d)) = true := by
    intro d mem
    have space := name.not_space d (List.mem_cons_of_mem _ mem)
    have mark := name.not_mark (List.mem_cons_of_mem _ mem)
    simp_all
  have ends : (before ++ '=' :: (behind ++ (quoted ++ rest))).head?.any
      (fun d => ! (decide (d = '=') || isSpace d)) = false := by
    cases before with
    | nil => rfl
    | cons d more => simp [left d List.mem_cons_self]
  obtain ⟨taken, onward⟩ := XPath.stretch_append inside ends
  unfold attribute?
  dsimp only
  rw [taken, onward, dropWhile_gap left (by simp [isSpace])]
  simp [read]

theorem SpellsAttributes.read (spells : SpellsAttributes written text) :
    ∀ fuel, text.length < fuel → ∃ raws, rawAttributes fuel text = some raws ∧
      (raws.mapM fun (key, raw) => (unescape raw).map fun v => (key, String.ofList v)) =
        some written := by
  induction spells with
  | @nil gap blank =>
    intro fuel room
    obtain ⟨fuel, rfl⟩ := Nat.exists_eq_succ_of_ne_zero (Nat.ne_zero_of_lt room)
    refine ⟨[], ?_, rfl⟩
    have nothing : (gap ++ []).dropWhile isSpace = [] := dropWhile_gap blank (by simp)
    rw [List.append_nil] at nothing
    rw [rawAttributes, nothing]
  | @cons gap key before behind value quoted more text blank apart name left right quotes _ ih =>
    intro fuel room
    obtain ⟨fuel, rfl⟩ := Nat.exists_eq_succ_of_ne_zero (Nat.ne_zero_of_lt room)
    obtain ⟨c, key, rfl⟩ := List.exists_cons_of_ne_nil name.filled
    obtain ⟨raw, escapes, read⟩ := attribute?_spelt name left right quotes text
    obtain ⟨raws, others, values⟩ := ih fuel (by simp at room; omega)
    refine ⟨(c :: key, raw) :: raws, ?_, ?_⟩
    · rw [rawAttributes, dropWhile_gap blank
        (by simpa using name.not_space c List.mem_cons_self)]
      simp only [List.cons_append, read, others]
      rfl
    · rw [List.mapM_cons, values]
      simp [escapes.unescape_eq]

theorem Tag.Spells.attributesOf {tag : Tag} (spelt : tag.Spells text) :
    attributesOf text = some tag.written := by
  obtain ⟨raws, read, values⟩ := spelt.attributes.read (text.length + 1) (Nat.lt_succ_self _)
  unfold Xml.attributesOf
  rw [read]
  simp only [Option.bind_eq_bind, Option.bind_some, values]
  rw [if_pos spelt.distinct]

/-! ### Events -/

theorem eventsOf_markup {e : Event} (found : markup cs = some (e, rest)) :
    eventsOf ('<' :: cs) = e :: eventsOf rest := by
  rw [eventsOf, if_pos rfl]
  split
  next other => 
    rw [found] at other
    cases other
    rfl
  next other => simp [found] at other

/-- The markup behind a bracket before a name. -/
theorem markup_name (name : IsName key) (rest : List Char) :
    markup (key ++ rest) =
      (tagBody none (key ++ rest)).map fun (body, left) => (tagOf body, left) := by
  obtain ⟨c, key, rfl⟩ := List.exists_cons_of_ne_nil name.filled
  have mark := name.not_mark List.mem_cons_self
  unfold markup
  split <;> simp_all

theorem split_tag (name : IsName key) (spells : SpellsAttributes written text) :
    (key ++ text).takeWhile (! isSpace ·) = key ∧ (key ++ text).dropWhile (! isSpace ·) = text := by
  refine XPath.stretch_append (fun c mem => by simp [name.not_space c mem]) ?_
  cases spells with
  | nil blank =>
    cases text with
    | nil => rfl
    | cons c more => simp [blank c List.mem_cons_self]
  | cons blank apart =>
    obtain ⟨c, more, rfl⟩ := List.exists_cons_of_ne_nil apart
    simp [blank c List.mem_cons_self]

/-- A tag that is not closed at once does not end in a slash. -/
theorem not_slash_last (name : IsName key) (spells : SpellsAttributes written text) :
    (key ++ text).getLast? ≠ some '/' := by
  intro last
  have ends : ∀ c ∈ text.getLast?, c ≠ '/' := by
    clear last
    induction spells with
    | nil blank =>
      rintro c mem rfl
      have := blank _ (List.mem_of_getLast? mem)
      simp [isSpace] at this
    | @cons gap key before behind value quoted more text _ _ _ _ _ quotes _ ih =>
      obtain ⟨either, -, -⟩ := quotes
      rename_i q raw
      intro c mem
      have whole : gap ++ (key ++ (before ++ '=' :: (behind ++ (q :: (raw ++ [q]) ++ text)))) =
          (gap ++ (key ++ (before ++ '=' :: (behind ++ q :: raw)))) ++ q :: text := by simp
      rw [whole, List.getLast?_append, List.getLast?_cons, Option.some_or, Option.mem_def,
        Option.some.injEq] at mem
      subst mem
      cases last : text.getLast? with
      | none => rcases either with rfl | rfl <;> exact (by decide)
      | some d => exact ih d last
  rw [List.getLast?_append, Option.or_eq_some_iff] at last
  rcases last with last | ⟨-, last⟩
  · exact ends _ last rfl
  · exact name.not_mark (List.mem_of_getLast? last) (by decide)

theorem eventsOf_opening {tag : Tag} (spelt : tag.Spells text) (rest : List Char) :
    eventsOf ('<' :: (tag.rawName ++ (text ++ '>' :: rest))) =
      .opening tag.rawName text :: eventsOf rest := by
  apply eventsOf_markup
  have body := spelt.name.passes.append spelt.attributes.passes ('>' :: rest)
  rw [List.append_assoc] at body
  obtain ⟨name, attributes⟩ := split_tag spelt.name spelt.attributes
  rw [markup_name spelt.name, body]
  simp only [tagBody, if_true, Option.map_some, List.append_nil]
  unfold tagOf
  split
  next slash => exact absurd slash (not_slash_last spelt.name spelt.attributes)
  next => simp only [name, attributes]

theorem eventsOf_empty {tag : Tag} (spelt : tag.Spells text) (rest : List Char) :
    eventsOf ('<' :: (tag.rawName ++ (text ++ '/' :: '>' :: rest))) =
      .empty tag.rawName text :: eventsOf rest := by
  apply eventsOf_markup
  have slash : Passes ['/'] := passes_of_plain (by simp)
  have body := (spelt.name.passes.append spelt.attributes.passes).append slash ('>' :: rest)
  simp only [List.append_assoc, List.singleton_append] at body
  obtain ⟨name, attributes⟩ := split_tag spelt.name spelt.attributes
  rw [markup_name spelt.name, body]
  simp only [tagBody, if_true, Option.map_some]
  simp [tagOf, ← List.append_assoc, name, attributes]

theorem eventsOf_closing (name : IsName key) (blank : IsGap gap) (rest : List Char) :
    eventsOf ('<' :: '/' :: (key ++ (gap ++ '>' :: rest))) = .closing key :: eventsOf rest := by
  apply eventsOf_markup
  have body := name.passes.append blank.passes ('>' :: rest)
  rw [List.append_assoc] at body
  have trimmed : ((key ++ gap).reverse.dropWhile isSpace).reverse = key := by
    rw [List.reverse_append, dropWhile_gap (fun c mem => blank c (List.mem_reverse.mp mem)),
      List.reverse_reverse]
    intro c mem
    rw [List.head?_reverse] at mem
    exact name.not_space c (List.mem_of_getLast? mem)
  have filled : key.isEmpty = false := by simpa using name.filled
  simp only [markup, body, tagBody, if_true, Option.map_some, List.append_nil, trimmed, filled]
  rfl

end Tags

end CatalogGraph.Xml
