import CatalogGraph.Mapping.Template
import Mathlib.Data.List.Infix
import Mathlib.Data.List.TakeWhile

/-!
Holes of templates: a template is cut from left to right at the earliest group in braces. Filling it
asks for the names of the groups in order, up to the first without a value, and writes the values in
their places as they are.
-/
namespace CatalogGraph.Template

/-- The name of a hole: one or more characters that are neither braces nor white space. -/
def IsName (name : String) : Prop :=
  name ≠ "" ∧ ∀ c ∈ name.toList, c ≠ '\x7b' ∧ c ≠ '\x7d' ∧ Text.isBlank c = false

/-- A name in braces. -/
def group (name : String) : List Char := '\x7b' :: (name.toList ++ ['\x7d'])

/-- A text cut from left to right: its holes, each with the text before it, and the text behind the
last one. A hole is the group that begins earliest. -/
inductive Cuts : List Char → List (List Char × String) → List Char → Prop
  | plain {cs} (none : ∀ name, IsName name → ¬ group name <:+: cs) : Cuts cs [] cs
  | hole {cs text name rest holes tail} (proper : IsName name)
      (whole : cs = text ++ (group name ++ rest))
      (earliest : ∀ before other after, IsName other → cs = before ++ (group other ++ after) →
        text.length ≤ before.length)
      (later : Cuts rest holes tail) : Cuts cs ((text, name) :: holes) tail

/-- The text with values in place of the holes. -/
def woven (holes : List (List Char × String)) (tail : List Char) (values : List String) :
    List Char :=
  (holes.zip values).flatMap (fun (hole, value) => hole.1 ++ value.toList) ++ tail

/-- The parts that a cut text has. -/
def joined (holes : List (List Char × String)) (tail : List Char) : List Part :=
  holes.flatMap (fun (text, name) => text.map .char ++ [.hole name]) ++ tail.map .char

section Cuts
variable {cs text rest tail : List Char} {name : String} {holes : List (List Char × String)}

theorem isNameChar_iff {c : Char} :
    isNameChar c = true ↔ c ≠ '\x7b' ∧ c ≠ '\x7d' ∧ Text.isBlank c = false := by
  simp [isNameChar, and_assoc]

theorem IsName.span (proper : IsName name) (rest : List Char) :
    (name.toList ++ '\x7d' :: rest).takeWhile isNameChar = name.toList ∧
      (name.toList ++ '\x7d' :: rest).dropWhile isNameChar = '\x7d' :: rest := by
  have all : ∀ c ∈ name.toList, isNameChar c = true :=
    fun c hc => isNameChar_iff.mpr (proper.2 c hc)
  rw [List.takeWhile_append_of_pos all, List.dropWhile_append_of_pos all]
  simp [isNameChar]

/-- A group is found behind an opening brace exactly if it stands there. -/
theorem holeAfter?_eq_some_iff :
    holeAfter? cs = some (name.toList, rest) ↔
      IsName name ∧ cs = name.toList ++ '\x7d' :: rest := by
  constructor
  · intro found
    unfold holeAfter? at found
    split at found
    next c letters left taken dropped =>
      obtain ⟨same, rfl⟩ := Prod.ext_iff.mp (Option.some.inj found)
      have letters : cs.takeWhile isNameChar = name.toList := taken.trans same
      refine ⟨⟨?_, fun d hd => ?_⟩, ?_⟩
      · rintro rfl
        cases same
      · rw [← letters] at hd
        exact isNameChar_iff.mp (List.mem_takeWhile_imp hd)
      · rw [← letters, ← dropped, List.takeWhile_append_dropWhile]
    next => cases found
  · rintro ⟨proper, rfl⟩
    obtain ⟨taken, dropped⟩ := proper.span rest
    unfold holeAfter?
    rw [taken, dropped]
    cases letters : name.toList with
    | nil => exact absurd (String.toList_eq_nil_iff.mp letters) proper.1
    | cons c letters => rfl

/-- No group begins where there is no opening brace, or where none is found behind it. -/
theorem no_group_begins {c : Char} (none : c ≠ '\x7b' ∨ holeAfter? cs = none) (name : String)
    (proper : IsName name) : ¬ group name <+: c :: cs := by
  rintro ⟨rest, whole⟩
  obtain ⟨rfl, same⟩ := List.cons.inj whole
  have found : holeAfter? cs = some (name.toList, rest) :=
    holeAfter?_eq_some_iff.mpr ⟨proper, by simpa using same.symm⟩
  rcases none with other | none
  · exact other rfl
  · simp [none] at found

/-- Where no group begins, a character is put before the cut of the rest. -/
theorem Cuts.behind {c : Char} (none : ∀ name, IsName name → ¬ group name <+: c :: cs)
    (cut : Cuts cs holes tail) :
    ∃ holes' tail', Cuts (c :: cs) holes' tail' ∧
      joined holes' tail' = .char c :: joined holes tail := by
  cases cut with
  | plain nowhere =>
    refine ⟨[], c :: cs, .plain fun name proper found => ?_, rfl⟩
    rcases List.infix_cons_iff.mp found with here | later
    · exact none name proper here
    · exact nowhere name proper later
  | @hole _ text name rest holes _ proper whole earliest later =>
    refine ⟨(c :: text, name) :: holes, tail, .hole proper (by rw [whole]; rfl) ?_ later, rfl⟩
    intro before other after proper' same
    cases before with
    | nil => exact absurd ⟨after, same.symm⟩ (none other proper')
    | cons d before =>
      have := earliest before other after proper' (List.cons.inj same).2
      simpa using this

/-- Every text can be cut, and the parts that are found in it are those of the cut. -/
theorem exists_cuts (cs : List Char) :
    ∃ holes tail, Cuts cs holes tail ∧ partsOf cs = joined holes tail := by
  induction cs using partsOf.induct with
  | case1 =>
    exact ⟨[], [], .plain fun name _ found => by simp [group] at found, by rw [partsOf]; rfl⟩
  | case2 rest letters left found ih =>
    obtain ⟨holes, tail, cut, parts⟩ := ih
    obtain ⟨name, rfl⟩ : ∃ name : String, letters = name.toList := ⟨_, String.toList_ofList.symm⟩
    obtain ⟨proper, rfl⟩ := holeAfter?_eq_some_iff.mp found
    refine ⟨([], name) :: holes, tail,
      .hole proper (by simp [group]) (fun _ _ _ _ _ => Nat.zero_le _) cut, ?_⟩
    rw [partsOf, if_pos rfl]
    split
    next heq =>
      obtain ⟨rfl, rfl⟩ := Prod.ext_iff.mp (Option.some.inj (found.symm.trans heq))
      rw [parts, String.ofList_toList]
      rfl
    next none => simp [found] at none
  | case3 rest none ih =>
    obtain ⟨holes, tail, cut, parts⟩ := ih
    obtain ⟨holes', tail', cut', same⟩ := cut.behind (no_group_begins (.inr none))
    refine ⟨holes', tail', cut', ?_⟩
    rw [partsOf, if_pos rfl, same]
    split
    next found => simp [none] at found
    next => rw [parts]
  | case4 c rest other ih =>
    obtain ⟨holes, tail, cut, parts⟩ := ih
    obtain ⟨holes', tail', cut', same⟩ := cut.behind (no_group_begins (.inl other))
    exact ⟨holes', tail', cut', by rw [partsOf, if_neg other, same, parts]⟩

/-- A group at the beginning of a text ends where its name does. -/
theorem group_append_inj {name' : String} {rest' : List Char} (proper : IsName name)
    (proper' : IsName name') (same : group name ++ rest = group name' ++ rest') :
    name = name' ∧ rest = rest' := by
  have behind : name.toList ++ '\x7d' :: rest = name'.toList ++ '\x7d' :: rest' := by
    simpa [group] using same
  have found : holeAfter? (name.toList ++ '\x7d' :: rest) = some (name.toList, rest) :=
    holeAfter?_eq_some_iff.mpr ⟨proper, rfl⟩
  rw [behind, holeAfter?_eq_some_iff.mpr ⟨proper', rfl⟩] at found
  obtain ⟨names, rfl⟩ := Prod.ext_iff.mp (Option.some.inj found)
  exact ⟨(String.toList_inj.mp names).symm, rfl⟩

/-- There is one way to cut a text. -/
theorem Cuts.unique {holes' : List (List Char × String)} {tail' : List Char}
    (first : Cuts cs holes tail) (second : Cuts cs holes' tail') :
    holes' = holes ∧ tail' = tail := by
  induction first generalizing holes' tail' with
  | plain nowhere =>
    cases second with
    | plain => exact ⟨rfl, rfl⟩
    | hole proper whole => exact absurd ⟨_, _, by rw [whole, List.append_assoc]⟩ (nowhere _ proper)
  | @hole _ text name rest holes tail proper whole earliest later ih =>
    cases second with
    | plain nowhere => exact absurd ⟨_, _, by rw [whole, List.append_assoc]⟩ (nowhere _ proper)
    | @hole _ text' name' rest' holes' _ proper' whole' earliest' later' =>
      have length : text.length = text'.length :=
        Nat.le_antisymm (earliest _ _ _ proper' whole') (earliest' _ _ _ proper whole)
      obtain ⟨rfl, groups⟩ := List.append_inj (whole.symm.trans whole') length
      obtain ⟨rfl, rfl⟩ := group_append_inj proper proper' groups
      obtain ⟨rfl, rfl⟩ := ih later'
      exact ⟨rfl, rfl⟩

/-- With their groups in the places of the holes the text is as before. -/
theorem Cuts.woven_groups (cut : Cuts cs holes tail) :
    woven holes tail (holes.map fun hole => "\x7b" ++ hole.2 ++ "\x7d") = cs := by
  induction cut with
  | plain => rfl
  | hole proper whole earliest later ih =>
    rw [whole, ← ih]
    simp [woven, group]

end Cuts

/-- A resolver with a state of its own, in which it may keep what it is asked, and errors. -/
abbrev Resolver (ε τ : Type) := String → ExceptT ε (StateM τ) (Option String)

variable {ε τ : Type}

/-- What a step of a resolver gives from a state, and the state after it. -/
def ran {α : Type} (step : ExceptT ε (StateM τ) α) (s : τ) : Except ε α × τ := step.run.run s

/-- Asked for names in turn, and for nothing else, a resolver gives a value for each. -/
inductive Gives (resolve : Resolver ε τ) : τ → List String → List String → τ → Prop
  | nothing {s} : Gives resolve s [] [] s
  | value {name value names values s t u} (first : ran (resolve name) s = (.ok (some value), t))
      (later : Gives resolve t names values u) :
      Gives resolve s (name :: names) (value :: values) u

/-- How a template is expanded: the names of its holes are asked for in order. If all have values,
these stand in the places of the holes; the first name without one is the error, and an error of the
resolver ends the asking too. -/
inductive Expands (resolve : Resolver ε τ) (holes : List (List Char × String)) (tail : List Char)
    (s : τ) : Except ε (Except String String) × τ → Prop
  | filled {values t} (given : Gives resolve s (holes.map (·.2)) values t) :
      Expands resolve holes tail s (.ok (.ok (String.ofList (woven holes tail values))), t)
  | missing {before name after values t u} (names : holes.map (·.2) = before ++ name :: after)
      (given : Gives resolve s before values t) (none : ran (resolve name) t = (.ok none, u)) :
      Expands resolve holes tail s (.ok (.error name), u)
  | failed {before name after values t e u} (names : holes.map (·.2) = before ++ name :: after)
      (given : Gives resolve s before values t) (error : ran (resolve name) t = (.error e, u)) :
      Expands resolve holes tail s (.error e, u)

section Filling
variable {resolve : Resolver ε τ} {holes : List (List Char × String)} {tail : List Char} {s : τ}

theorem ran_bind {α β : Type} (step : ExceptT ε (StateM τ) α) (next : α → ExceptT ε (StateM τ) β)
    (s : τ) : ran (step >>= next) s =
      match ran step s with
      | (.ok a, t) => ran (next a) t
      | (.error e, t) => (.error e, t) := by
  unfold ran
  rw [ExceptT.run_bind, StateT.run_bind]
  rcases step.run.run s with ⟨_ | _, _⟩ <;> rfl

/-- Text is written as it stands. -/
theorem ran_fill_text (text : List Char) (parts : List Part) (s : τ) :
    ran (fill resolve (text.map .char ++ parts)) s =
      ((ran (fill resolve parts) s).1.map (·.map (text ++ ·)), (ran (fill resolve parts) s).2) := by
  induction text with
  | nil =>
    rw [List.map_nil, List.nil_append]
    rcases ran (fill resolve parts) s with ⟨_ | _ | _, _⟩ <;> rfl
  | cons c text ih =>
    rw [List.map_cons, List.cons_append, fill, ran_bind, ih]
    rcases ran (fill resolve parts) s with ⟨_ | _ | _, _⟩ <;> rfl

/-- A hole is filled before what is behind it. -/
theorem ran_fill_hole (name : String) (parts : List Part) (s : τ) :
    ran (fill resolve (.hole name :: parts)) s =
      match ran (resolve name) s with
      | (.ok (some value), t) =>
        ((ran (fill resolve parts) t).1.map (·.map (value.toList ++ ·)),
          (ran (fill resolve parts) t).2)
      | (.ok none, t) => (.ok (.error name), t)
      | (.error e, t) => (.error e, t) := by
  rw [fill, ran_bind]
  rcases ran (resolve name) s with ⟨_ | _ | value, t⟩
  · rfl
  · rfl
  · dsimp only
    rw [ran_bind]
    rcases ran (fill resolve parts) t with ⟨_ | _ | _, _⟩ <;> rfl

theorem joined_cons (text : List Char) (name : String) (holes : List (List Char × String))
    (tail : List Char) :
    joined ((text, name) :: holes) tail = text.map .char ++ .hole name :: joined holes tail := by
  simp [joined]

/-- The names of the parts of a cut text are those of its holes. -/
theorem names_joined (holes : List (List Char × String)) (tail : List Char) :
    ((joined holes tail).filterMap fun
      | .hole name => some name
      | .char _ => none) = holes.map (·.2) := by
  have plain (text : List Char) : ((text.map Part.char).filterMap fun
      | .hole name => some name
      | .char _ => none) = ([] : List String) := by
    simp [List.filterMap_map]
  induction holes with
  | nil => exact plain tail
  | cons hole holes ih =>
    rw [joined_cons, List.filterMap_append, plain, List.filterMap_cons, ih]
    rfl

theorem ran_fill_of_gives {values : List String} {t : τ}
    (given : Gives resolve s (holes.map (·.2)) values t) :
    ran (fill resolve (joined holes tail)) s = (.ok (.ok (woven holes tail values)), t) := by
  induction holes generalizing s values with
  | nil =>
    have written (s : τ) : ran (fill resolve (tail.map .char ++ [])) s =
        (.ok (.ok (tail ++ [])), s) := ran_fill_text tail [] s
    cases given
    simpa [joined, woven] using written _
  | cons hole holes ih =>
    obtain ⟨text, name⟩ := hole
    cases given with
    | value first later =>
      rw [joined_cons, ran_fill_text, ran_fill_hole, first]
      dsimp only
      rw [ih later]
      simp [woven, Except.map]

/-- The asking stops at a name, and so does the filling. -/
theorem ran_fill_of_stop {before after values : List String} {name : String} {t u : τ}
    {stop : Except ε (Except String (List Char))}
    (names : holes.map (·.2) = before ++ name :: after) (given : Gives resolve s before values t)
    (stops : ran (resolve name) t = (.ok none, u) ∧ stop = .ok (.error name) ∨
      ∃ e, ran (resolve name) t = (.error e, u) ∧ stop = .error e) :
    ran (fill resolve (joined holes tail)) s = (stop, u) := by
  induction holes generalizing s before values with
  | nil => simp at names
  | cons hole holes ih =>
    obtain ⟨text, other⟩ := hole
    rw [joined_cons, ran_fill_text, ran_fill_hole]
    cases given with
    | nothing =>
      obtain rfl : other = name := (List.cons.inj names).1
      rcases stops with ⟨none, rfl⟩ | ⟨e, error, rfl⟩
      · rw [none]
        rfl
      · rw [error]
        rfl
    | value first later =>
      obtain ⟨rfl, same⟩ := List.cons.inj names
      rw [first]
      dsimp only
      rw [ih same later]
      rcases stops with ⟨-, rfl⟩ | ⟨e, -, rfl⟩ <;> rfl

/-- Asked for names in turn a resolver gives a value for each, or it stops at one of them. -/
theorem gives_or_stops (resolve : Resolver ε τ) (names : List String) (s : τ) :
    (∃ values t, Gives resolve s names values t) ∨
      ∃ before name after values t, names = before ++ name :: after ∧
        Gives resolve s before values t ∧ ∃ u, ran (resolve name) t = (.ok none, u) ∨
          ∃ e, ran (resolve name) t = (.error e, u) := by
  induction names generalizing s with
  | nil => exact .inl ⟨[], s, .nothing⟩
  | cons name names ih =>
    rcases first : ran (resolve name) s with ⟨e | _ | value, t⟩
    · exact .inr ⟨[], name, names, [], s, rfl, .nothing, t, .inr ⟨e, first⟩⟩
    · exact .inr ⟨[], name, names, [], s, rfl, .nothing, t, .inl first⟩
    · rcases ih t with ⟨values, u, later⟩ | ⟨before, stop, after, values, u, rfl, later, rest⟩
      · exact .inl ⟨value :: values, u, .value first later⟩
      · exact .inr ⟨name :: before, stop, after, value :: values, u, rfl, .value first later, rest⟩

section Expanding
variable {template : String} (cut : Cuts template.toList holes tail)
include cut

theorem ran_expand (s : τ) : ran (expand resolve template) s =
    ((ran (fill resolve (joined holes tail)) s).1.map (·.map String.ofList),
      (ran (fill resolve (joined holes tail)) s).2) := by
  obtain ⟨holes', tail', cut', parts_⟩ := exists_cuts template.toList
  obtain ⟨rfl, rfl⟩ := cut.unique cut'
  rw [expand, parts, parts_, ran_bind]
  rcases ran (fill resolve (joined holes' tail')) s with ⟨_ | _ | _, _⟩ <;> rfl

theorem ran_expand_of_gives {values : List String} {t : τ}
    (given : Gives resolve s (holes.map (·.2)) values t) :
    ran (expand resolve template) s =
      (.ok (.ok (String.ofList (woven holes tail values))), t) := by
  rw [ran_expand cut, ran_fill_of_gives given]
  rfl

theorem expands_of_cuts (s : τ) :
    Expands resolve holes tail s (ran (expand resolve template) s) := by
  rcases gives_or_stops resolve (holes.map (·.2)) s with
    ⟨values, t, given⟩ | ⟨before, name, after, values, t, names, given, u, none | ⟨e, error⟩⟩
  · rw [ran_expand_of_gives cut given]
    exact .filled given
  · rw [ran_expand cut, ran_fill_of_stop names given (.inl ⟨none, rfl⟩)]
    exact .missing names given none
  · rw [ran_expand cut, ran_fill_of_stop names given (.inr ⟨e, error, rfl⟩)]
    exact .failed names given error

end Expanding

/-- A resolver that gives for each name its group. -/
def groups : Resolver ε τ := fun name => pure (some ("\x7b" ++ name ++ "\x7d"))

theorem gives_groups (names : List String) (s : τ) :
    Gives (groups : Resolver ε τ) s names (names.map fun name => "\x7b" ++ name ++ "\x7d") s := by
  induction names with
  | nil => exact .nothing
  | cons name names ih => exact .value rfl ih

end Filling

/-- A template is cut in one way, and its names are those of the holes of the cut. To expand it, a
resolver is asked for these names in order, until one has no value; the values are put in the places
of the holes as they are. With the group of each name as its value the template is given back. -/
theorem expand_fills_cut (template : String) :
    ∃ holes tail, Cuts template.toList holes tail ∧
      (∀ holes' tail', Cuts template.toList holes' tail' → holes' = holes ∧ tail' = tail) ∧
      names template = holes.map (·.2) ∧
      ∀ (ε τ : Type) (s : τ),
        (∀ resolve : Resolver ε τ,
          Expands resolve holes tail s (ran (expand resolve template) s)) ∧
        ran (expand (groups : Resolver ε τ) template) s = (.ok (.ok template), s) := by
  obtain ⟨holes, tail, cut, parts_⟩ := exists_cuts template.toList
  refine ⟨holes, tail, cut, fun _ _ other => cut.unique other, ?_,
    fun ε τ s => ⟨fun resolve => expands_of_cuts cut s, ?_⟩⟩
  · rw [names, parts, parts_]
    exact names_joined holes tail
  · rw [ran_expand_of_gives cut (gives_groups _ s)]
    simp only [List.map_map, Function.comp_def, cut.woven_groups, String.ofList_toList]

/-- The braces of a query are text. -/
example : names "ASK { <{s}> ?p {{o}} }" = ["s", "o"] := by decide +kernel

end CatalogGraph.Template
