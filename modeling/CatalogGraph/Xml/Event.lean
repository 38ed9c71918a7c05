import CatalogGraph.Xml.Reference
import CatalogGraph.Xml.Fault

/-!
XML text as a sequence of events: tags, character data, and what is passed over. No event is lost
or invented, and each one takes at least one character of the text.
-/
namespace CatalogGraph.Xml

/-- A part of a document in the order of the text. -/
inductive Event where
  /-- A start tag: its name and the text behind the name. -/
  | opening (name attributes : List Char)
  /-- A tag that opens and closes an element at once. -/
  | empty (name attributes : List Char)
  | closing (name : List Char)
  /-- Text whose references are not yet replaced. -/
  | text (raw : List Char)
  /-- Text without references. -/
  | cdata (content : List Char)
  /-- A comment, an instruction or a declaration. -/
  | skipped
  /-- Markup that cannot be read, which ends the sequence. -/
  | broken
deriving DecidableEq, Repr

/-- White space between the parts of a tag. -/
def isSpace (c : Char) : Bool := c = ' ' || c = '\r' || c = '\n' || c = '\t'

/-- The text up to an angle bracket outside quotes, and the text behind the bracket. -/
def tagBody : Option Char → List Char → Option (List Char × List Char)
  | _, [] => none
  | none, c :: rest =>
    if c = '>' then some ([], rest)
    else (tagBody (if c = '"' || c = '\'' then some c else none) rest).map
      fun (body, left) => (c :: body, left)
  | some q, c :: rest =>
    (tagBody (if c = q then none else some q) rest).map fun (body, left) => (c :: body, left)

/-- The text before the first occurrence of a mark, and the text behind it. -/
def upTo (mark : List Char) : List Char → Option (List Char × List Char)
  | [] => none
  | c :: rest =>
    match Text.afterStart? mark (c :: rest) with
    | some left => some ([], left)
    | none => (upTo mark rest).map fun (body, left) => (c :: body, left)

/-- The text up to the bracket that closes a declaration, within which brackets nest. -/
def declarationBody : Nat → List Char → Option (List Char × List Char)
  | _, [] => none
  | depth, c :: rest =>
    if c = '<' then (declarationBody (depth + 1) rest).map fun (body, left) => (c :: body, left)
    else if c = '>' then
      match depth with
      | 0 => some ([], rest)
      | depth + 1 => (declarationBody depth rest).map fun (body, left) => (c :: body, left)
    else (declarationBody depth rest).map fun (body, left) => (c :: body, left)

/-- Whether a text starts with a word of ASCII letters in either case. -/
def startsWithWord (word : List Char) (cs : List Char) : Bool :=
  (cs.take word.length).map Char.toUpper == word

/-- The tag with the given content. -/
def tagOf (content : List Char) : Event :=
  let split := fun (body : List Char) =>
    (body.takeWhile (! isSpace ·), body.dropWhile (! isSpace ·))
  match content.getLast? with
  | some '/' => let (name, attributes) := split content.dropLast; .empty name attributes
  | _ => let (name, attributes) := split content; .opening name attributes

/-- The markup behind an opening bracket and an exclamation mark. -/
def declarationEvent (cs : List Char) : Option (Event × List Char) :=
  match cs with
  | '-' :: '-' :: rest => (upTo ['-', '-', '>'] rest).map fun (_, left) => (.skipped, left)
  | '[' :: rest =>
    match Text.afterStart? "CDATA[".toList rest with
    | some content => (upTo [']', ']', '>'] content).map fun (body, left) => (.cdata body, left)
    | none => none
  | _ =>
    if startsWithWord "DOCTYPE".toList cs then
      match declarationBody 0 (cs.drop 7) with
      | some (body, left) => if body.all isSpace then none else some (.skipped, left)
      | none => none
    else none

/-- The markup behind an opening bracket, and the text behind it. -/
def markup (cs : List Char) : Option (Event × List Char) :=
  match cs with
  | '!' :: rest => declarationEvent rest
  | '/' :: rest =>
    (tagBody none rest).map fun (body, left) =>
      let trimmed := (body.reverse.dropWhile isSpace).reverse
      (.closing (if trimmed.isEmpty then body else trimmed), left)
  | '?' :: rest =>
    match rest with
    | '>' :: _ => none
    | _ => (upTo ['?', '>'] rest).map fun (_, left) => (.skipped, left)
  | [] => none
  | _ => (tagBody none cs).map fun (body, left) => (tagOf body, left)

theorem length_of_tagBody {q : Option Char} {cs body rest : List Char}
    (found : tagBody q cs = some (body, rest)) : rest.length < cs.length := by
  induction cs generalizing q body with
  | nil => simp [tagBody] at found
  | cons c cs ih =>
    cases q with
    | none =>
      simp only [tagBody] at found
      split at found
      next => simp_all
      next =>
        obtain ⟨⟨b, l⟩, hb, he⟩ := Option.map_eq_some_iff.mp found
        obtain ⟨rfl, rfl⟩ := Prod.mk.inj he
        have := ih hb
        simp only [List.length_cons] at this ⊢
        omega
    | some q =>
      simp only [tagBody] at found
      obtain ⟨⟨b, l⟩, hb, he⟩ := Option.map_eq_some_iff.mp found
      obtain ⟨rfl, rfl⟩ := Prod.mk.inj he
      have := ih hb
      simp only [List.length_cons] at this ⊢
      omega

theorem length_of_upTo {mark cs body rest : List Char}
    (found : upTo mark cs = some (body, rest)) : rest.length ≤ cs.length := by
  induction cs generalizing body with
  | nil => simp [upTo] at found
  | cons c cs ih =>
    simp only [upTo] at found
    split at found
    next left hs =>
      have := congrArg List.length (Text.afterStart?_eq_some_iff.mp hs)
      simp_all only [Option.some.injEq, Prod.mk.injEq, List.length_cons, List.length_append]
      omega
    next =>
      obtain ⟨⟨b, l⟩, hb, he⟩ := Option.map_eq_some_iff.mp found
      obtain ⟨rfl, rfl⟩ := Prod.mk.inj he
      have := ih hb
      simp only [List.length_cons] at this ⊢
      omega

theorem length_of_declarationBody {depth : Nat} {cs body rest : List Char}
    (found : declarationBody depth cs = some (body, rest)) : rest.length < cs.length := by
  induction cs generalizing depth body with
  | nil => simp [declarationBody] at found
  | cons c cs ih =>
    have step : ∀ {d : Nat}, ((declarationBody d cs).map fun (b, l) => (c :: b, l)) =
        some (body, rest) → rest.length < (c :: cs).length := by
      intro d hd
      obtain ⟨⟨b, l⟩, hb, he⟩ := Option.map_eq_some_iff.mp hd
      obtain ⟨rfl, rfl⟩ := Prod.mk.inj he
      have := ih hb
      simp only [List.length_cons] at this ⊢
      omega
    simp only [declarationBody] at found
    split at found
    next => exact step found
    next =>
      split at found
      next =>
        split at found
        next => simp_all
        next => exact step found
      next => exact step found

theorem length_of_declarationEvent {cs rest : List Char} {e : Event}
    (found : declarationEvent cs = some (e, rest)) : rest.length ≤ cs.length := by
  unfold declarationEvent at found
  split at found
  next =>
    obtain ⟨⟨b, l⟩, hb, he⟩ := Option.map_eq_some_iff.mp found
    have := length_of_upTo hb
    simp_all only [Prod.mk.injEq, List.length_cons]
    omega
  next =>
    split at found
    next content hc =>
      obtain ⟨⟨b, l⟩, hb, he⟩ := Option.map_eq_some_iff.mp found
      have bound := congrArg List.length (Text.afterStart?_eq_some_iff.mp hc)
      have := length_of_upTo hb
      simp_all only [Prod.mk.injEq, List.length_cons, List.length_append]
      omega
    next => simp at found
  next =>
    split at found
    next =>
      split at found
      next body left hb =>
        have := length_of_declarationBody hb
        split at found
        next => simp at found
        next =>
          simp_all only [Option.some.injEq, Prod.mk.injEq, List.length_drop]
          omega
      next => simp at found
    next => simp at found

theorem length_of_markup {cs rest : List Char} {e : Event}
    (found : markup cs = some (e, rest)) : rest.length ≤ cs.length := by
  unfold markup at found
  split at found
  next =>
    have := length_of_declarationEvent found
    simp only [List.length_cons]
    omega
  next =>
    obtain ⟨⟨b, l⟩, hb, he⟩ := Option.map_eq_some_iff.mp found
    have := length_of_tagBody hb
    simp_all only [Prod.mk.injEq, List.length_cons]
    omega
  next =>
    split at found
    next => simp at found
    next =>
      obtain ⟨⟨b, l⟩, hb, he⟩ := Option.map_eq_some_iff.mp found
      have := length_of_upTo hb
      simp_all only [Prod.mk.injEq, List.length_cons]
      omega
  next => simp at found
  next =>
    obtain ⟨⟨b, l⟩, hb, he⟩ := Option.map_eq_some_iff.mp found
    have := length_of_tagBody hb
    simp_all only [Prod.mk.injEq]
    omega

/-- The events of a text up to its end or to broken markup. -/
def eventsOf (cs : List Char) : List Event :=
  match cs with
  | [] => []
  | c :: rest =>
    if c = '<' then
      match _found : markup rest with
      | some (e, left) => e :: eventsOf left
      | none => [.broken]
    else .text (c :: rest.takeWhile (· ≠ '<')) :: eventsOf (rest.dropWhile (· ≠ '<'))
termination_by cs.length
decreasing_by
  · have := length_of_markup _found
    simp only [List.length_cons]
    omega
  · have := (List.dropWhile_sublist (p := (· ≠ '<')) (l := rest)).length_le
    simp only [List.length_cons]
    omega

/-- The events of a document, which may start with a byte order mark. -/
def documentEvents (text : String) : List Event :=
  match text.toList with
  | '\uFEFF' :: rest => eventsOf rest
  | cs => eventsOf cs

end CatalogGraph.Xml
