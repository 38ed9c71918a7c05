import CatalogGraph.Text.Blank

/-!
Templates: text with named holes. A hole is a name between braces that holds neither white space
nor a brace; any other brace is text.
-/
namespace CatalogGraph.Template

/-- A character of the text, or a hole. -/
inductive Part where
  | char (c : Char)
  | hole (name : String)
deriving DecidableEq, Repr

/-- Whether a character may stand in the name of a hole. -/
def isNameChar (c : Char) : Bool := c ≠ '\x7b' && c ≠ '\x7d' && !Text.isBlank c

/-- The name of a hole and the text behind it, if one follows an opening brace. -/
def holeAfter? (cs : List Char) : Option (List Char × List Char) :=
  match cs.takeWhile isNameChar, cs.dropWhile isNameChar with
  | c :: name, '\x7d' :: rest => some (c :: name, rest)
  | _, _ => none

theorem length_of_holeAfter? {cs name rest : List Char}
    (found : holeAfter? cs = some (name, rest)) : rest.length < cs.length := by
  unfold holeAfter? at found
  split at found
  next heq =>
    have bound := (List.dropWhile_sublist (p := isNameChar) (l := cs)).length_le
    rw [heq] at bound
    cases found
    simp only [List.length_cons] at bound
    omega
  next => cases found

/-- The parts of a text from left to right. -/
def partsOf (cs : List Char) : List Part :=
  match cs with
  | [] => []
  | c :: rest =>
    if c = '\x7b' then
      match _found : holeAfter? rest with
      | some (name, left) => .hole (String.ofList name) :: partsOf left
      | none => .char c :: partsOf rest
    else .char c :: partsOf rest
termination_by cs.length
decreasing_by
  · have := length_of_holeAfter? _found
    simp only [List.length_cons]
    omega
  · simp
  · simp

/-- The parts of a template. -/
def parts (template : String) : List Part := partsOf template.toList

/-- The names of the holes, in order. -/
def names (template : String) : List String :=
  (parts template).filterMap fun
    | .hole name => some name
    | .char _ => none

theorem mem_names_iff {template name : String} :
    name ∈ names template ↔ .hole name ∈ parts template := by
  unfold names
  rw [List.mem_filterMap]
  constructor
  · rintro ⟨part, hp, eq⟩
    cases part with
    | char => cases eq
    | hole => cases eq; exact hp
  · exact fun h => ⟨_, h, rfl⟩

/-- Fills the holes in order with what `resolve` gives for their names; the result is the name of
the first hole without a value, or the text. -/
def fill {m : Type → Type} [Monad m] (resolve : String → m (Option String)) :
    List Part → m (Except String (List Char))
  | [] => pure (.ok [])
  | .char c :: rest => do
    match ← fill resolve rest with
    | .ok cs => pure (.ok (c :: cs))
    | .error name => pure (.error name)
  | .hole name :: rest => do
    match ← resolve name with
    | none => pure (.error name)
    | some value =>
      match ← fill resolve rest with
      | .ok cs => pure (.ok (value.toList ++ cs))
      | .error name => pure (.error name)

/-- Expands a template, or gives the name of the first hole without a value. -/
def expand {m : Type → Type} [Monad m] (resolve : String → m (Option String))
    (template : String) : m (Except String String) := do
  match ← fill resolve (parts template) with
  | .ok cs => pure (.ok (String.ofList cs))
  | .error name => pure (.error name)

variable {m : Type → Type} [Monad m] {resolve resolve' : String → m (Option String)}

theorem fill_congr {parts : List Part}
    (same : ∀ name, .hole name ∈ parts → resolve name = resolve' name) :
    fill resolve parts = fill resolve' parts := by
  induction parts with
  | nil => rfl
  | cons part rest ih =>
    have later := ih fun name h => same name (by simp [h])
    cases part with
    | char c => simp only [fill, later]
    | hole name => simp only [fill, later, same name (by simp)]

/-- Only the values of the names of a template count. -/
theorem expand_congr {template : String}
    (same : ∀ name ∈ names template, resolve name = resolve' name) :
    expand resolve template = expand resolve' template := by
  unfold expand
  rw [fill_congr fun name h => same name (mem_names_iff.mpr h)]

end CatalogGraph.Template
