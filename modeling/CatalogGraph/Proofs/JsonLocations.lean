import CatalogGraph.Json.Reader
import CatalogGraph.Proofs.EntryKeys

/-!
Locations in JSON values: the keys and indices that lead from a value to one in it. Objects that are
read have their keys in ascending order, so each key leads to one member, and locations are ordered
as what stands there is written.
-/
namespace CatalogGraph.Json

/-- A move from a value to one that it holds. -/
inductive Move where
  | member (key : String)
  | item (index : Nat)
deriving DecidableEq, Repr

/-- The moves that lead from a value to one in it. -/
abbrev Location := List Move

/-- The value to which a move leads. -/
def child? : Json → Move → Option Json
  | .object members, .member key => Entries.get? key members
  | .array items, .item index => items[index]?
  | _, _ => none

/-- The value at a location. -/
def at? (v : Json) : Location → Option Json
  | [] => some v
  | move :: rest => (v.child? move).bind fun child => child.at? rest

/-- The keys of every object in a value are in ascending order. -/
def InOrder (v : Json) : Prop :=
  ∀ location members, v.at? location = some (.object members) →
    members.Pairwise fun member other => member.1 < other.1

/-- The order of moves from one value. -/
inductive Move.Before : Move → Move → Prop
  | member {key key'} (lt : key < key') : Before (.member key) (.member key')
  | item {index index'} (lt : index < index') : Before (.item index) (.item index')

/-- The order of a document: of two locations that part, the one with the smaller key or index where
they part comes first. -/
inductive Before : Location → Location → Prop
  | parted {move move' rest rest'} (before : move.Before move') :
      Before (move :: rest) (move' :: rest')
  | onward {move rest rest'} (later : Before rest rest') : Before (move :: rest) (move :: rest')

/-- The order of a document in which the own members of an object come before what is in them. -/
inductive OwnFirst : Location → Location → Prop
  | own {key key' move rest} : OwnFirst [.member key] (.member key' :: move :: rest)
  | parted {move move' rest rest'} (before : move.Before move') (within : rest' = [] → rest = []) :
      OwnFirst (move :: rest) (move' :: rest')
  | onward {move rest rest'} (later : OwnFirst rest rest') :
      OwnFirst (move :: rest) (move :: rest')

variable {v w : Json} {key : String} {location location' : Location}

/-! ### Values at locations -/

theorem at?_append (v : Json) (first later : Location) :
    v.at? (first ++ later) = (v.at? first).bind fun w => w.at? later := by
  induction first generalizing v with
  | nil => rfl
  | cons move rest ih =>
    rw [List.cons_append, at?, at?]
    cases v.child? move with
    | none => rfl
    | some child => exact ih child

theorem at?_cons_eq_some_iff {move : Move} :
    v.at? (move :: location) = some w ↔ ∃ child, v.child? move = some child ∧
      child.at? location = some w := by
  rw [at?, Option.bind_eq_some_iff]

theorem at?_single (v : Json) (move : Move) : v.at? [move] = v.child? move := by
  rw [at?]
  cases v.child? move <;> rfl

theorem InOrder.of_at? (ordered : v.InOrder) (found : v.at? location = some w) : w.InOrder := by
  intro later members inside
  refine ordered (location ++ later) members ?_
  rw [at?_append, found]
  exact inside

theorem InOrder.of_child? (move : Move) (ordered : v.InOrder) (found : v.child? move = some w) :
    w.InOrder :=
  ordered.of_at? (by rw [at?_single, found] : v.at? [move] = some w)

theorem InOrder.ascending {members : List (String × Json)}
    (ordered : (Json.object members).InOrder) :
    members.Pairwise fun member other => member.1 < other.1 :=
  ordered [] members rfl

/-- A value whose values are in order is in order itself, if its own keys are. -/
theorem inOrder_of_children
    (own : ∀ members, v = .object members → members.Pairwise fun member other => member.1 < other.1)
    (children : ∀ move child, v.child? move = some child → child.InOrder) : v.InOrder := by
  intro location members found
  cases location with
  | nil => exact own members (Option.some.inj found)
  | cons move rest =>
    obtain ⟨child, here, inside⟩ := at?_cons_eq_some_iff.mp found
    exact children move child here rest members inside

/-- A value is an array or an object, of whose values a property is known, or neither. -/
theorem value_induction {motive : Json → Prop}
    (scalar : ∀ v : Json, (∀ items, v ≠ .array items) → (∀ members, v ≠ .object members) → motive v)
    (array : ∀ items, (∀ item ∈ items, motive item) → motive (.array items))
    (object : ∀ members : List (String × Json), (∀ member ∈ members, motive member.2) →
      motive (.object members))
    (v : Json) : motive v :=
  match v with
  | .array items => array items fun item _mem => value_induction scalar array object item
  | .object members => object members fun member _mem =>
      value_induction scalar array object member.2
  | .null => scalar _ nofun nofun
  | .bool _ => scalar _ nofun nofun
  | .number _ => scalar _ nofun nofun
  | .string _ => scalar _ nofun nofun
termination_by sizeOf v
decreasing_by
  · have := List.sizeOf_lt_of_mem _mem
    simp only [Json.array.sizeOf_spec]
    omega
  · have := List.sizeOf_lt_of_mem _mem
    obtain ⟨key, value⟩ := member
    simp only [Json.object.sizeOf_spec, Prod.mk.sizeOf_spec] at this ⊢
    omega

/-- A scalar holds no value. -/
theorem child?_scalar (array : ∀ items, v ≠ .array items) (object : ∀ members, v ≠ .object members)
    (move : Move) : v.child? move = none := by
  cases v with
  | array items => exact absurd rfl (array items)
  | object members => exact absurd rfl (object members)
  | _ => cases move <;> rfl

/-! ### The order of locations -/

theorem Move.Before.irrefl (move : Move) : ¬ move.Before move := by
  rintro (lt | lt)
  · exact String.lt_irrefl _ lt
  · exact Nat.lt_irrefl _ lt

theorem Before.irrefl (location : Location) : ¬ Before location location := by
  induction location with
  | nil => nofun
  | cons move rest ih =>
    rintro (before | later)
    · exact before.irrefl
    · exact ih later

theorem OwnFirst.irrefl (location : Location) : ¬ OwnFirst location location := by
  induction location with
  | nil => nofun
  | cons move rest ih =>
    intro first
    cases first with
    | parted before => exact before.irrefl
    | onward later => exact ih later

theorem Before.behind (before : Before location location') (start : Location) :
    Before (start ++ location) (start ++ location') := by
  induction start with
  | nil => exact before
  | cons move rest ih => exact .onward ih

theorem Before.extend (before : Before location location') (rest rest' : Location) :
    Before (location ++ rest) (location' ++ rest') := by
  induction before with
  | parted before => exact .parted before
  | onward _ ih => exact .onward ih

theorem OwnFirst.behind (first : OwnFirst location location') (start : Location) :
    OwnFirst (start ++ location) (start ++ location') := by
  induction start with
  | nil => exact first
  | cons move rest ih => exact .onward ih

/-- Locations that part stay in order with any moves behind them. -/
theorem Before.ownFirst (before : Before location location') {rest' : Location}
    (rest : Location) (deeper : rest' ≠ []) : OwnFirst (location ++ rest) (location' ++ rest') := by
  induction before with
  | parted before => exact .parted before fun none => absurd none (by simp [deeper])
  | onward _ ih => exact .onward ih

/-! ### Documents that are read -/

theorem inOrder_array {items : List Json} (ordered : ∀ item ∈ items, item.InOrder) :
    (Json.array items).InOrder := by
  refine inOrder_of_children nofun fun move child found => ?_
  cases move with
  | member key => cases found
  | item index => exact ordered child (List.mem_of_getElem? found)

theorem inOrder_ofMembers {members : List (String × Json)}
    (ordered : ∀ member ∈ members, member.2.InOrder) : (ofMembers members).InOrder := by
  have ascending := Entries.ascending_ofPairs members
  refine inOrder_of_children (fun _ same => Json.object.inj same ▸ ascending)
    fun move child found => ?_
  cases move with
  | member key =>
    rcases Entries.mem_insertAll ((Entries.get?_eq_some_iff ascending).mp found) with mem | none
    · exact ordered _ mem
    · cases none
  | item index => cases found

theorem inOrder_scalar (array : ∀ items, v ≠ .array items)
    (object : ∀ members, v ≠ .object members) : v.InOrder := by
  refine inOrder_of_children (fun members same => absurd same (object members))
    fun move child found => ?_
  rw [child?_scalar array object move] at found
  cases found

mutual

theorem inOrder_of_ofWritten? (written : Written) {depth : Nat} {v : Json}
    (read : ofWritten? depth written = some v) : v.InOrder := by
  cases written with
  | null => cases read; exact inOrder_scalar nofun nofun
  | bool b => cases read; exact inOrder_scalar nofun nofun
  | number n =>
    rw [ofWritten?] at read
    obtain ⟨_, -, rfl⟩ := Option.map_eq_some_iff.mp read
    exact inOrder_scalar nofun nofun
  | string body =>
    rw [ofWritten?] at read
    obtain ⟨_, -, rfl⟩ := Option.map_eq_some_iff.mp read
    exact inOrder_scalar nofun nofun
  | array items =>
    cases depth with
    | zero => rw [ofWritten?] at read; cases read
    | succ depth =>
      rw [ofWritten?] at read
      obtain ⟨_, inner, rfl⟩ := Option.map_eq_some_iff.mp read
      exact inOrder_array (inOrder_of_ofItems? items inner)
  | object members =>
    cases depth with
    | zero => rw [ofWritten?] at read; cases read
    | succ depth =>
      rw [ofWritten?] at read
      obtain ⟨_, inner, rfl⟩ := Option.map_eq_some_iff.mp read
      exact inOrder_ofMembers (inOrder_of_ofMembers? members inner)

theorem inOrder_of_ofItems? (written : List Written) {depth : Nat} {items : List Json}
    (read : ofItems? depth written = some items) : ∀ item ∈ items, item.InOrder := by
  cases written with
  | nil => cases read; simp
  | cons first rest =>
    rw [ofItems?] at read
    split at read
    next => cases read
    next v one =>
      obtain ⟨more, others, rfl⟩ := Option.map_eq_some_iff.mp read
      exact List.forall_mem_cons.mpr
        ⟨inOrder_of_ofWritten? first one, inOrder_of_ofItems? rest others⟩

theorem inOrder_of_ofMembers? (written : List (List Char × Written)) {depth : Nat}
    {members : List (String × Json)} (read : ofMembers? depth written = some members) :
    ∀ member ∈ members, member.2.InOrder := by
  cases written with
  | nil => cases read; simp
  | cons first rest =>
    obtain ⟨body, item⟩ := first
    rw [ofMembers?] at read
    split at read
    next key v _ one =>
      obtain ⟨more, others, rfl⟩ := Option.map_eq_some_iff.mp read
      exact List.forall_mem_cons.mpr
        ⟨inOrder_of_ofWritten? item one, inOrder_of_ofMembers? rest others⟩
    next => cases read

end

/-- A document that is read has its keys in order. -/
theorem inOrder_of_parse? {text : String} (read : parse? text = some v) : v.InOrder := by
  obtain ⟨written, -, read⟩ := Option.bind_eq_some_iff.mp read
  exact inOrder_of_ofWritten? written read

end CatalogGraph.Json
