import CatalogGraph.Command.Settings
import CatalogGraph.Proofs.EntryKeys
import Mathlib.Data.List.Basic

/-!
Layered settings: what a name stands for when a run starts, with the flags of the command above the
file and the file above the defaults. Only where the file names the base among its values does it
win over the flag for the base, and then the identities of the run have another base than its terms.
-/
namespace CatalogGraph.Command
open FileSettings (splitValue?)
variable {text name value flag : String} {flags : List String} {baseIri : Option String}
  {file : FileSettings} {config : Config}

/-! ### Results -/

theorem exists_of_bind {ε α β : Type} {x : Except ε α} {k : α → Except ε β} {y : β}
    (given : x.bind k = .ok y) : ∃ a, x = .ok a ∧ k a = .ok y := by
  cases x with
  | error e => cases given
  | ok a => exact ⟨a, rfl, given⟩

theorem filterMap_of_mapM {ε α β : Type} {k : α → Except ε β} {f : α → Option β}
    (each : ∀ x y, k x = .ok y → f x = some y) {xs : List α} {ys : List β}
    (given : xs.mapM k = .ok ys) : xs.filterMap f = ys := by
  induction xs generalizing ys with
  | nil =>
    cases given
    rfl
  | cons x rest ih =>
    rw [List.mapM_cons] at given
    cases first : k x with
    | error e =>
      rw [first] at given
      cases given
    | ok y =>
      rw [first] at given
      cases later : rest.mapM k with
      | error e =>
        rw [later] at given
        cases given
      | ok others =>
        rw [later] at given
        cases given
        rw [List.filterMap_cons, each x y first, ih later]

/-! ### Flags for named values -/

/-- A flag gives a name, which stands before its first equals sign, the value behind that sign. -/
def Gives (flag name value : String) : Prop :=
  ∃ before after : List Char, flag.toList = before ++ '=' :: after ∧ '=' ∉ before ∧
    Text.trim (String.ofList before) = name ∧ String.ofList after = value

/-- The value is that of the last flag that gives a name any. -/
def LastGiven (flags : List String) (name value : String) : Prop :=
  ∃ earlier flag later, flags = earlier ++ flag :: later ∧ Gives flag name value ∧
    ∀ other ∈ later, ∀ value', ¬ Gives other name value'

/-- The value that a flag gives a name. -/
def given? (name flag : String) : Option String :=
  (splitValue? flag).bind fun pair => if name = pair.1 then some pair.2 else none

/-- The value that the last flag for a name gives it. -/
def lastGiven? (flags : List String) (name : String) : Option String :=
  flags.reverse.findSome? (given? name)

theorem splitValue?_of_toList {before after : List Char}
    (spelt : flag.toList = before ++ '=' :: after) (free : '=' ∉ before) :
    splitValue? flag = some (Text.trim (String.ofList before), String.ofList after) := by
  have all : ∀ c ∈ before, decide (c ≠ '=') = true := fun c mem =>
    decide_eq_true fun same => free (same ▸ mem)
  have sign : flag.toList.contains '=' = true := by simp [spelt]
  unfold splitValue?
  dsimp only
  rw [if_pos sign, spelt, List.takeWhile_append_of_pos all, List.dropWhile_append_of_pos all]
  simp

theorem splitValue?_eq_some_iff :
    splitValue? flag = some (name, value) ↔ Gives flag name value := by
  constructor
  · intro split
    have sign : '=' ∈ flag.toList := by
      by_contra none
      simp [splitValue?, none] at split
    obtain ⟨before, after, spelt, free⟩ := List.eq_append_cons_of_mem sign
    rw [splitValue?_of_toList spelt free] at split
    obtain ⟨named, valued⟩ := Prod.mk.inj (Option.some.inj split)
    exact ⟨before, after, spelt, free, named, valued⟩
  · rintro ⟨before, after, spelt, free, rfl, rfl⟩
    exact splitValue?_of_toList spelt free

theorem given?_eq_some_iff : given? name flag = some value ↔ Gives flag name value := by
  rw [← splitValue?_eq_some_iff, given?, Option.bind_eq_some_iff]
  constructor
  · rintro ⟨⟨name', value'⟩, split, here⟩
    rw [Option.ite_none_right_eq_some, Option.some.injEq] at here
    rw [split, ← here.2, here.1]
  · intro split
    exact ⟨_, split, if_pos rfl⟩

theorem lastGiven?_eq_some_iff :
    lastGiven? flags name = some value ↔ LastGiven flags name value := by
  rw [lastGiven?, List.findSome?_eq_some_iff]
  constructor
  · rintro ⟨later, flag, earlier, parts, given, none⟩
    refine ⟨earlier.reverse, flag, later.reverse, ?_, given?_eq_some_iff.mp given, ?_⟩
    · rw [← List.reverse_reverse flags, parts]
      simp
    · intro other mem value' given'
      have found := given?_eq_some_iff.mpr given'
      rw [none other (List.mem_reverse.mp mem)] at found
      cases found
  · rintro ⟨earlier, flag, later, rfl, given, none⟩
    refine ⟨later.reverse, flag, earlier.reverse, by simp, given?_eq_some_iff.mpr given, ?_⟩
    intro other mem
    exact Option.eq_none_iff_forall_ne_some.mpr fun value' found =>
      none other (List.mem_reverse.mp mem) value' (given?_eq_some_iff.mp found)

theorem get?_filterMap_splitValue? (name : String) (flags : List String) :
    Entries.get? name (flags.filterMap splitValue?) = flags.findSome? (given? name) := by
  induction flags with
  | nil => rfl
  | cons flag rest ih =>
    rw [List.filterMap_cons, List.findSome?_cons, given?]
    cases splitValue? flag with
    | none => exact ih
    | some pair =>
      dsimp only [Option.bind_some]
      rw [Entries.get?, ih]
      split <;> rfl

/-! ### The file -/

theorem exists_of_optional? {α : Type} {read : Toml.Value → Option α} {v : Option Toml.Value}
    {x : α} (found : optional? read v = some (some x)) : ∃ w, read w = some x := by
  cases v with
  | none => cases found
  | some w =>
    obtain ⟨y, here, same⟩ := Option.map_eq_some_iff.mp found
    exact ⟨w, here.trans same⟩

theorem ascending_textTable? {v : Toml.Value} {entries : Entries String}
    (read : textTable? v = some entries) :
    entries.Pairwise fun entry other => entry.1 < other.1 := by
  unfold textTable? at read
  split at read
  next members =>
    obtain ⟨pairs, -, made⟩ := Option.bind_eq_some_iff.mp read
    rw [← Option.some.inj made]
    exact Entries.ascending_ofPairs pairs
  next moment =>
    rw [← Option.some.inj read]
    exact List.pairwise_singleton _ _
  next => cases read

theorem ascending_engineSection? {v : Toml.Value} {part : EngineSection}
    (read : engineSection? v = some part) :
    (part.values.getD []).Pairwise fun entry other => entry.1 < other.1 := by
  obtain ⟨fields, -, read⟩ := Option.bind_eq_some_iff.mp read
  split at read
  next base blank size namespaces values =>
    obtain ⟨_, -, read⟩ := Option.bind_eq_some_iff.mp read
    obtain ⟨_, -, read⟩ := Option.bind_eq_some_iff.mp read
    obtain ⟨_, -, read⟩ := Option.bind_eq_some_iff.mp read
    obtain ⟨_, -, read⟩ := Option.bind_eq_some_iff.mp read
    obtain ⟨entries, found, read⟩ := Option.bind_eq_some_iff.mp read
    rw [← Option.some.inj read]
    cases entries with
    | none => exact .nil
    | some entries =>
      obtain ⟨_, table⟩ := exists_of_optional? found
      exact ascending_textTable? table
  next => cases read

namespace FileSettings

theorem ascending_values (parsed : parse? text = some file) :
    (file.engine.values.getD []).Pairwise fun entry other => entry.1 < other.1 := by
  obtain ⟨_, -, parsed⟩ := Option.bind_eq_some_iff.mp parsed
  obtain ⟨_, -, parsed⟩ := Option.bind_eq_some_iff.mp parsed
  split at parsed
  next engine store harvest identity =>
    obtain ⟨part, found, parsed⟩ := Option.bind_eq_some_iff.mp parsed
    obtain ⟨_, -, parsed⟩ := Option.bind_eq_some_iff.mp parsed
    obtain ⟨_, -, parsed⟩ := Option.bind_eq_some_iff.mp parsed
    obtain ⟨_, -, parsed⟩ := Option.bind_eq_some_iff.mp parsed
    rw [← Option.some.inj parsed]
    cases part with
    | none => exact .nil
    | some part =>
      obtain ⟨_, read⟩ := exists_of_optional? found
      exact ascending_engineSection? read
  next => cases parsed

/-- What the file has for a name among its values. -/
def named? (file : FileSettings) (name : String) : Option String :=
  Entries.get? name (file.engine.values.getD [])

/-- The base that a run has by the flag for it and the settings of runs in the file. -/
def base (file : FileSettings) (baseIri : Option String) : String :=
  (baseIri.or file.engine.baseIri).getD "http://example.org/"

/-- What a name stands for if every flag wins over the file. -/
def flagsFirst? (file : FileSettings) (baseIri : Option String) (flags : List String)
    (name : String) : Option String :=
  (lastGiven? flags name).or <|
    if name = "base_iri" then
      (baseIri.or (file.named? name)).or (some (file.base none))
    else file.named? name

/-- What a name stands for if the values of the file win over the flag for the base. -/
def valuesFirst? (file : FileSettings) (baseIri : Option String) (flags : List String)
    (name : String) : Option String :=
  (lastGiven? flags name).or <|
    if name = "base_iri" then (file.named? name).or (some (file.base baseIri))
    else file.named? name

/-- A value of the file stands before another base that a flag gives, as no flag names the base. -/
def Shadows (file : FileSettings) (baseIri : Option String) (flags : List String) : Prop :=
  ∃ base entry, baseIri = some base ∧ file.named? "base_iri" = some entry ∧ entry ≠ base ∧
    ∀ value, ¬ LastGiven flags "base_iri" value

theorem config_eq_ok (accepted : file.config baseIri flags = .ok config) :
    config.baseIri = file.base baseIri ∧ config.namedValues =
      (Entries.ofPairs (file.engine.values.getD [])).insertAll (flags.filterMap splitValue?) := by
  obtain ⟨named, each, made⟩ := exists_of_bind accepted
  cases made
  refine ⟨rfl, ?_⟩
  rw [filterMap_of_mapM (fun flag pair => ?_) each]
  intro taken
  split at taken
  next found => rw [found, Except.ok.inj taken]
  next => cases taken

theorem get?_namedValues (parsed : parse? text = some file)
    (accepted : file.config baseIri flags = .ok config) (name : String) :
    config.namedValues.get? name = (lastGiven? flags name).or (file.named? name) := by
  rw [(config_eq_ok accepted).2, Entries.get?_insertAll, ← List.filterMap_reverse,
    get?_filterMap_splitValue?, Entries.ofPairs, Entries.get?_insertAll,
    Entries.get?_reverse name (ascending_values parsed), Entries.get?, Option.or_none]
  rfl

theorem ascending_namedValues (accepted : file.config baseIri flags = .ok config) :
    config.namedValues.Pairwise fun entry other => entry.1 < other.1 := by
  rw [(config_eq_ok accepted).2]
  exact Entries.ascending_insertAll _ (Entries.ascending_ofPairs _)

end FileSettings

theorem get?_context {uuids : Generator}
    (ascending : config.namedValues.Pairwise fun entry other => entry.1 < other.1)
    (name : String) (other : name ≠ "uuid") :
    Entries.get? name (config.context uuids) = ((config.namedValues.get? name).or
      (if name = "base_iri" then some config.baseIri else none)).map .text := by
  have entered : config.context uuids = Entries.insertAll
      (config.namedValues.map fun entry => (entry.1, .text entry.2))
      (Entries.insert "uuid" (.generator uuids)
        (Context.set "base_iri" config.baseIri .empty)) := by
    rw [Entries.insertAll, List.foldl_map]
    rfl
  rw [entered, Entries.get?_insertAll, ← List.map_reverse, Entries.get?_map,
    Entries.get?_reverse name ascending, Entries.get?_insert, if_neg other, Context.set,
    Entries.get?_insert, Option.map_or]
  split <;> rfl

namespace FileSettings

theorem get?_context_eq_valuesFirst? (parsed : parse? text = some file)
    (accepted : file.config baseIri flags = .ok config) (uuids : Generator) (name : String)
    (other : name ≠ "uuid") : Entries.get? name (config.context uuids) =
      (file.valuesFirst? baseIri flags name).map .text := by
  rw [get?_context (ascending_namedValues accepted) name other, get?_namedValues parsed accepted,
    (config_eq_ok accepted).1, valuesFirst?, Option.or_assoc]
  congr 2
  split
  next => rfl
  next => rw [Option.or_none]

theorem valuesFirst?_base_eq_flagsFirst?_iff :
    file.valuesFirst? baseIri flags "base_iri" = file.flagsFirst? baseIri flags "base_iri" ↔
      ¬ file.Shadows baseIri flags := by
  unfold Shadows valuesFirst? flagsFirst?
  rw [if_pos rfl, if_pos rfl]
  cases given : lastGiven? flags "base_iri" with
  | some value =>
    refine iff_of_true rfl ?_
    rintro ⟨_, _, -, -, -, none⟩
    exact none value (lastGiven?_eq_some_iff.mp given)
  | none =>
    have none (value : String) : ¬ LastGiven flags "base_iri" value := fun last => by
      rw [lastGiven?_eq_some_iff.mpr last] at given
      cases given
    cases baseIri with
    | none => simp
    | some flag =>
      cases entry : file.named? "base_iri" with
      | none => simp [base]
      | some entry => simp [none]

theorem valuesFirst?_eq_flagsFirst? {name : String} (other : name ≠ "base_iri") :
    file.valuesFirst? baseIri flags name = file.flagsFirst? baseIri flags name := by
  rw [valuesFirst?, flagsFirst?, if_neg other, if_neg other]

/-- A value of the file for a name yields to the last flag for that name, and the base of the file
to the flag for the base. But a value of the file for the base does not yield to that flag: every
flag wins over the file exactly if no such value shadows the base, and only then do terms see the
base that names are minted under. -/
theorem flags_win_iff_not_shadowed (parsed : parse? text = some file)
    (accepted : file.config baseIri flags = .ok config) (uuids : Generator) :
    (∀ name value, lastGiven? flags name = some value ↔ LastGiven flags name value) ∧
    (∀ name, name ≠ "uuid" → Entries.get? name (config.context uuids) =
      (file.valuesFirst? baseIri flags name).map .text) ∧
    ((∀ name, name ≠ "uuid" → Entries.get? name (config.context uuids) =
      (file.flagsFirst? baseIri flags name).map .text) ↔ ¬ file.Shadows baseIri flags) ∧
    (file.identities config).baseIri = file.identity.baseIri.getD (file.base baseIri) ∧
    (baseIri.isSome → file.identity.baseIri = none →
      (∀ value, ¬ LastGiven flags "base_iri" value) →
      (Entries.get? "base_iri" (config.context uuids) =
        some (.text (file.identities config).baseIri) ↔ ¬ file.Shadows baseIri flags)) := by
  have seen := get?_context_eq_valuesFirst? parsed accepted uuids
  have minted : (file.identities config).baseIri =
      file.identity.baseIri.getD (file.base baseIri) := by
    rw [← (config_eq_ok accepted).1]
    rfl
  have text_inj : Function.Injective ContextValue.text := fun _ _ => ContextValue.text.inj
  refine ⟨fun _ _ => lastGiven?_eq_some_iff, seen, ⟨fun all => ?_, fun plain name other => ?_⟩,
    minted, fun set own none => ?_⟩
  · rw [← valuesFirst?_base_eq_flagsFirst?_iff]
    have here := all "base_iri" (by decide)
    rw [seen _ (by decide)] at here
    exact Option.map_injective text_inj here
  · rw [seen name other]
    by_cases base : name = "base_iri"
    · rw [base, valuesFirst?_base_eq_flagsFirst?_iff.mpr plain]
    · rw [valuesFirst?_eq_flagsFirst? base]
  · obtain ⟨flag, rfl⟩ := Option.isSome_iff_exists.mp set
    have unnamed : lastGiven? flags "base_iri" = Option.none :=
      Option.eq_none_iff_forall_ne_some.mpr fun value found =>
        none value (lastGiven?_eq_some_iff.mp found)
    have first : file.flagsFirst? (some flag) flags "base_iri" =
        some (file.identities config).baseIri := by
      rw [minted, own, flagsFirst?, unnamed]
      rfl
    rw [seen _ (by decide), ← valuesFirst?_base_eq_flagsFirst?_iff, first]
    exact (Option.map_injective text_inj).eq_iff (b := some _)

end FileSettings

/-- A file with a base for runs and the given value for a name. -/
def placedFile (name value : String) : FileSettings :=
  { engine := { baseIri := some "http://lib.example.edu/", values := some [(name, value)] } }

theorem parse?_owner : FileSettings.parse?
    "engine.base_iri='http://lib.example.edu/'\nengine.values.owner='http://lib.example.edu/o'" =
      some (placedFile "owner" "http://lib.example.edu/o") := by
  decide +kernel

theorem parse?_base : FileSettings.parse?
    "engine.base_iri='http://lib.example.edu/'\nengine.values.base_iri='http://old.example.edu/'" =
      some (placedFile "base_iri" "http://old.example.edu/") := by
  decide +kernel

/-- Two flags for a name, of which one has a blank before its equals sign. -/
def ownerFlags : List String :=
  ["owner=http://lib.example.edu/a", "owner =http://lib.example.edu/b"]

/-- A source of numbers. -/
def numbers : Generator := { id := 0, draw := toString }

theorem last_flag_for_owner : ∃ text file config, FileSettings.parse? text = some file ∧
    file.named? "owner" = some "http://lib.example.edu/o" ∧
    file.config (some "http://new.example.edu/") ownerFlags = .ok config ∧
    Entries.get? "owner" (config.context numbers) = some (.text "http://lib.example.edu/b") ∧
    Entries.get? "base_iri" (config.context numbers) = some (.text "http://new.example.edu/") ∧
    (file.identities config).baseIri = "http://new.example.edu/" := by
  have taken : ∃ config, (placedFile "owner" "http://lib.example.edu/o").config
      (some "http://new.example.edu/") ownerFlags = .ok config := ⟨_, rfl⟩
  obtain ⟨config, accepted⟩ := taken
  obtain ⟨-, -, win, minted, -⟩ :=
    FileSettings.flags_win_iff_not_shadowed parse?_owner accepted numbers
  have plain : ¬ (placedFile "owner" "http://lib.example.edu/o").Shadows
      (some "http://new.example.edu/") ownerFlags := by
    rintro ⟨_, _, -, found, -⟩
    cases found
  refine ⟨_, _, _, parse?_owner, rfl, accepted, ?_, ?_, minted⟩
  · rw [win.mpr plain "owner" (by decide)]
    rfl
  · rw [win.mpr plain "base_iri" (by decide)]
    rfl

/-- The flag for the base yields to a value of the file, and names are minted under another base
than terms see. -/
theorem base_flag_yields : ∃ text file config, FileSettings.parse? text = some file ∧
    file.config (some "http://new.example.edu/") [] = .ok config ∧
    Entries.get? "base_iri" (config.context numbers) = some (.text "http://old.example.edu/") ∧
    file.flagsFirst? (some "http://new.example.edu/") [] "base_iri" =
      some "http://new.example.edu/" ∧
    (file.identities config).baseIri = "http://new.example.edu/" :=
  ⟨_, placedFile "base_iri" "http://old.example.edu/", _, parse?_base, rfl, rfl, rfl, rfl⟩

end CatalogGraph.Command
