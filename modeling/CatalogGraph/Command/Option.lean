import CatalogGraph.Entries
import CatalogGraph.Text.Numeral

/-!
Reading the arguments of a command: options by name or by letter, arguments by their place, and
the name of a command below. The values of an option are looked at when the next argument begins,
so a fault in them comes before a fault of that argument, unless it is unknown.
-/
namespace CatalogGraph.Command

/-- Why arguments cannot be taken, or what they ask for in place of a command. -/
inductive ArgumentFault where
  | help
  | helpOnMissing
  | version
  | missingCommand
  | unknownCommand
  | unknownArgument
  | missingArgument
  | conflict
  | tooManyValues
  | invalidValue
  | unreadableValue
deriving DecidableEq, Repr

/-- What the values of an option are. -/
inductive ValueKind where
  | text
  | path
  | number
  | oneOf (names : List String)
deriving DecidableEq, Repr

/-- Whether a value is of its kind. -/
def ValueKind.check : ValueKind → String → Except ArgumentFault Unit
  | .text, _ => .ok ()
  | .path, s => if s = "" then .error .invalidValue else .ok ()
  | .number, s => if (Text.word? s).isSome then .ok () else .error .unreadableValue
  | .oneOf names, s => if names.contains s then .ok () else .error .invalidValue

/-- How many values an occurrence of an option has. -/
inductive Takes where
  | nothing
  | one
  | any
deriving DecidableEq, Repr

/-- An option, or an argument by place. -/
structure OptionSpec where
  name : String
  letter : Option Char := none
  takes : Takes := .one
  kind : ValueKind := .text
  repeatable : Bool := false
  required : Bool := false
  /-- What the option asks for in place of a command. -/
  asks : Option ArgumentFault := none
deriving DecidableEq, Repr

/-- A command and what may follow its name. -/
structure CommandSpec where
  options : List OptionSpec
  /-- The argument that is given by its place. -/
  positional : Option OptionSpec := none
  /-- The names of the commands below. -/
  commands : List String := []
deriving DecidableEq, Repr

/-- What has been read of the arguments of a command. -/
structure Reading where
  /-- The values of each option that has occurred. -/
  given : Entries (List String) := []
  /-- The option that occurred last with the values that have come for it. -/
  pending : Option (OptionSpec × List String) := none
  /-- Whether the next argument may be a value of that option. -/
  isOpen : Bool := false
  /-- Whether no more options follow. -/
  isTrailing : Bool := false

namespace Reading

def has (r : Reading) (name : String) : Bool := r.given.contains name

/-- The values of all occurrences of an option. -/
def values (r : Reading) (name : String) : List String := (r.given.get? name).getD []

/-- The value of an option that has one. -/
def value? (r : Reading) (name : String) : Option String := (r.values name).head?

/-- Takes an occurrence of an option with all its values. -/
def take (r : Reading) (option : OptionSpec) (values : List String) :
    Except ArgumentFault Reading := do
  if option.takes = .one ∧ values = [] then throw .invalidValue
  if r.has option.name ∧ ¬ option.repeatable then throw .conflict
  for v in values do
    option.kind.check v
  return { r with
    given := r.given.insert option.name (r.values option.name ++ values), isOpen := false }

/-- Takes the option that occurred last. -/
def settle (r : Reading) : Except ArgumentFault Reading :=
  match r.pending with
  | none => .ok r
  | some (option, values) => { r with pending := none }.take option values

/-- An option without values. -/
def flag (r : Reading) (option : OptionSpec) : Except ArgumentFault Reading := do
  let r ← r.settle
  match option.asks with
  | some fault => throw fault
  | none => r.take option []

/-- An option with its only value, or one whose values are still to come. -/
def withValue (r : Reading) (option : OptionSpec) (value : Option String) :
    Except ArgumentFault Reading := do
  let r ← r.settle
  match value with
  | some v => r.take option [v]
  | none => return { r with pending := some (option, []), isOpen := true }

/-- An option by its name. -/
def long (spec : CommandSpec) (r : Reading) (name : String) (value : Option String) :
    Except ArgumentFault Reading :=
  match spec.options.find? (·.name == name) with
  | none => throw .unknownArgument
  | some option =>
    match option.takes, value with
    | .nothing, some _ => throw .tooManyValues
    | .nothing, none => r.flag option
    | _, _ => r.withValue option value

/-- Options by their letters; what follows an option that takes values is its value. -/
def letters (spec : CommandSpec) (r : Reading) : List Char → Except ArgumentFault Reading
  | [] => return r
  | c :: rest =>
    match spec.options.find? (·.letter == some c) with
    | none => throw .unknownArgument
    | some option =>
      match option.takes, rest with
      | .nothing, _ => do letters spec (← r.flag option) rest
      | _, [] => r.withValue option none
      | _, '=' :: value => r.withValue option (some (String.ofList value))
      | _, value => r.withValue option (some (String.ofList value))

/-- A value for the option that occurred last. -/
def more (r : Reading) (value : String) : Reading :=
  match r.pending with
  | some (option, values) =>
    { r with pending := some (option, values ++ [value]), isOpen := option.takes = .any }
  | none => r

/-- An argument by its place. -/
def place (spec : CommandSpec) (r : Reading) (value : String) : Except ArgumentFault Reading :=
  match spec.positional with
  | none =>
    if spec.commands.isEmpty ∨ (r.isTrailing ∧ spec.commands.contains value) then
      throw .unknownArgument
    else throw .unknownCommand
  | some argument => do
    let isPending := r.pending.any (·.1 == argument)
    if (isPending || r.has argument.name) && !argument.repeatable then throw .unknownArgument
    let r ← if isPending then pure r else r.settle
    let before := if isPending then (r.pending.map (·.2)).getD [] else []
    return { r with pending := some (argument, before ++ [value]), isOpen := false }

/-- One argument that no command below takes. -/
def argument (spec : CommandSpec) (r : Reading) (arg : String) : Except ArgumentFault Reading :=
  if r.isTrailing then r.place spec arg
  else
    match arg.toList with
    | ['-', '-'] => return { r with isTrailing := true }
    | '-' :: '-' :: cs =>
      let name := String.ofList (cs.takeWhile (· ≠ '='))
      r.long spec name (if cs.contains '=' then
        some (String.ofList ((cs.dropWhile (· ≠ '=')).drop 1)) else none)
    | '-' :: c :: cs => r.letters spec (c :: cs)
    | _ => if r.isOpen then return r.more arg else r.place spec arg

/-- Reads arguments up to the name of a command below, which is the first of those left. -/
def read (spec : CommandSpec) (r : Reading) :
    List String → Except ArgumentFault (Reading × List String)
  | [] => return (r, [])
  | arg :: rest => do
    if !r.isTrailing && !r.isOpen && spec.commands.contains arg then return (r, arg :: rest)
    read spec (← r.argument spec arg) rest

/-- Whether options of the names occur together. -/
def excludes (r : Reading) (a b : String) : Except ArgumentFault Unit :=
  if r.has a ∧ r.has b then throw .conflict else return

/-- Whether all that the command requires is there. -/
def requires (spec : CommandSpec) (r : Reading) : Except ArgumentFault Unit :=
  let required := (spec.options ++ spec.positional.toList).filter (·.required)
  if required.all fun option => r.has option.name then return else throw .missingArgument

end Reading
end CatalogGraph.Command
