import CatalogGraph.JsonPath.Path
import CatalogGraph.Proofs.JsonLocations

/-!
Locations that a JSON path selects: without descendants those to which its segments lead, each once
and in the order of the document; behind them descendants at any depth, each once, the own members
of an object before those within.
-/
namespace CatalogGraph.JsonPath
open Json (Location Move Before OwnFirst)

/-- A segment leads from a value along a location to a value in it. A key leads to the member of an
object, also through any number of arrays; an index leads to an item, counted from the end if it is
negative; a star leads to every member and item. -/
inductive Segment.Leads : Segment → Json → Location → Json → Prop
  | member {key members v} (found : Entries.get? key members = some v) :
      Leads (.key key) (.object members) [.member key] v
  | through {key items i item location v} (stands : items[i]? = some item)
      (onward : Leads (.key key) item location v) :
      Leads (.key key) (.array items) (.item i :: location) v
  | index {n : Int} {items : List Json} {item} {i : Nat}
      (counted : n = i ∨ n < 0 ∧ items.length + n = i) (stands : items[i]? = some item) :
      Leads (.index n) (.array items) [.item i] item
  | anyMember {key members v} (found : Entries.get? key members = some v) :
      Leads .wildcard (.object members) [.member key] v
  | anyItem {items i item} (stands : items[i]? = some item) :
      Leads .wildcard (.array items) [.item i] item

/-- The segments of a path lead on from one another. -/
inductive Path.Leads : Path → Json → Location → Json → Prop
  | here {v} : Leads [] v [] v
  | step {segment path v location w later u} (first : Segment.Leads segment v location w)
      (onward : Path.Leads path w later u) : Leads (segment :: path) v (location ++ later) u

/-- A member of an object at any depth in a value, under a name or for a star under any. -/
def Beneath (name : String) (v : Json) (location : Location) (w : Json) : Prop :=
  ∃ objects key, location = objects ++ [.member key] ∧ (name = "*" ∨ key = name) ∧
    v.at? location = some w

/-- Values with the locations of a kind, in order. -/
def Listed (order : Location → Location → Prop) (reached : Location → Json → Prop)
    (values : List Json) : Prop :=
  ∃ found : List (Location × Json), found.map (·.2) = values ∧
    (∀ location v, (location, v) ∈ found ↔ reached location v) ∧
    found.Pairwise fun one other => order one.1 other.1

/-- The values at the locations of a kind in a document, each location once and in order. -/
def Lists (doc : Json) (order : Location → Location → Prop) (reached : Location → Prop)
    (values : List Json) : Prop :=
  ∃ locations : List Location, values.map some = locations.map doc.at? ∧
    (∀ location, location ∈ locations ↔ reached location) ∧ locations.Nodup ∧
    locations.Pairwise order

/-! ### Lists with locations -/

section Listing
variable {order first : Location → Location → Prop} {reached reached' : Location → Json → Prop}
  {values values' : List Json}

theorem Listed.congr (listed : Listed order reached values)
    (same : ∀ location v, reached location v ↔ reached' location v) :
    Listed order reached' values := by
  obtain ⟨found, whole, complete, ordered⟩ := listed
  exact ⟨found, whole, fun location v => (complete location v).trans (same location v), ordered⟩

theorem listed_nil (none : ∀ location v, ¬ reached location v) : Listed order reached [] :=
  ⟨[], rfl, by simpa using none, .nil⟩

theorem listed_single (location : Location) (v : Json) :
    Listed order (fun l w => l = location ∧ w = v) [v] :=
  ⟨[(location, v)], rfl, by simp, List.pairwise_singleton _ _⟩

theorem Listed.append (listed : Listed order reached values)
    (listed' : Listed order reached' values')
    (across : ∀ {l v l' v'}, reached l v → reached' l' v' → order l l') :
    Listed order (fun l v => reached l v ∨ reached' l v) (values ++ values') := by
  obtain ⟨found, rfl, complete, ordered⟩ := listed
  obtain ⟨found', rfl, complete', ordered'⟩ := listed'
  refine ⟨found ++ found', List.map_append, fun l v => ?_, ?_⟩
  · rw [List.mem_append, complete, complete']
  · refine List.pairwise_append.mpr ⟨ordered, ordered', fun one mem other mem' => ?_⟩
    exact across ((complete _ _).mp mem) ((complete' _ _).mp mem')

/-- What is listed for each value of a list is listed together, behind the locations of the
values. -/
theorem Listed.flatMap {f : Json → List Json} {inner : Json → Location → Json → Prop}
    (outer : Listed first reached values)
    (each : ∀ {l v}, reached l v → Listed order (inner v) (f v))
    (across : ∀ {l v l' v' k w k' w'}, first l l' → reached l v → reached l' v' → inner v k w →
      inner v' k' w' → order (l ++ k) (l' ++ k'))
    (behind : ∀ {k k'} (l : Location), order k k' → order (l ++ k) (l ++ k')) :
    Listed order (fun location w => ∃ l v k, reached l v ∧ inner v k w ∧ location = l ++ k)
      (values.flatMap f) := by
  obtain ⟨found, rfl, complete, ordered⟩ := outer
  have part : ∀ entry : Location × Json, ∃ inside : List (Location × Json),
      entry ∈ found → inside.map (·.2) = f entry.2 ∧
        (∀ k w, (k, w) ∈ inside ↔ inner entry.2 k w) ∧
        inside.Pairwise fun one other => order one.1 other.1 := by
    rintro ⟨l, v⟩
    by_cases mem : (l, v) ∈ found
    · obtain ⟨inside, facts⟩ := each ((complete l v).mp mem)
      exact ⟨inside, fun _ => facts⟩
    · exact ⟨[], fun mem' => absurd mem' mem⟩
  choose inside facts using part
  refine ⟨found.flatMap fun entry => (inside entry).map fun (k, w) => (entry.1 ++ k, w), ?_,
    fun location w => ?_, List.pairwise_flatMap.mpr ⟨fun entry mem => ?_, ?_⟩⟩
  · rw [List.map_flatMap, List.flatMap_map]
    refine List.flatMap_congr fun entry mem => ?_
    rw [← (facts entry mem).1, List.map_map]
    rfl
  · simp only [List.mem_flatMap, List.mem_map, Prod.exists, Prod.mk.injEq]
    constructor
    · rintro ⟨l, v, mem, k, w', mem', rfl, rfl⟩
      exact ⟨l, v, k, (complete l v).mp mem, ((facts _ mem).2.1 k w').mp mem', rfl⟩
    · rintro ⟨l, v, k, reach, into, rfl⟩
      have mem := (complete l v).mpr reach
      exact ⟨l, v, mem, k, w, ((facts _ mem).2.1 k w).mpr into, rfl, rfl⟩
  · rw [List.pairwise_map]
    exact (facts entry mem).2.2.imp fun ordered => behind entry.1 ordered
  · refine ordered.imp_of_mem fun {one other} mem mem' before => ?_
    simp only [List.forall_mem_map, Prod.forall]
    intro k w into k' w' into'
    exact across before ((complete _ _).mp mem) ((complete _ _).mp mem')
      (((facts one mem).2.1 k w).mp into) (((facts other mem').2.1 k' w').mp into')

/-- Locations in an order of which none comes before itself are listed once. -/
theorem Listed.lists {doc : Json} (listed : Listed order reached values)
    (irrefl : ∀ location, ¬ order location location)
    (stands : ∀ location v, reached location v → doc.at? location = some v) :
    Lists doc order (fun location => ∃ v, reached location v) values := by
  obtain ⟨found, rfl, complete, ordered⟩ := listed
  refine ⟨found.map (·.1), ?_, fun location => ?_, ?_, ?_⟩
  · rw [List.map_map, List.map_map]
    exact List.map_congr_left fun (l, v) mem => (stands l v ((complete l v).mp mem)).symm
  · simp only [List.mem_map, Prod.exists, exists_and_right, exists_eq_right, complete]
  · refine List.pairwise_map.mpr (ordered.imp fun {one other} before same => ?_)
    exact irrefl _ (same ▸ before)
  · exact List.pairwise_map.mpr ordered

theorem Listed.mono {order' : Location → Location → Prop} (listed : Listed order reached values)
    (stronger : ∀ {l v l' v'}, reached l v → reached l' v' → order l l' → order' l l') :
    Listed order' reached values := by
  obtain ⟨found, rfl, complete, ordered⟩ := listed
  refine ⟨found, rfl, complete, ordered.imp_of_mem fun mem mem' before => ?_⟩
  exact stronger ((complete _ _).mp mem) ((complete _ _).mp mem') before

end Listing

/-! ### Segments -/

section Segments
variable {name : String} {segment : Segment} {path : Path} {v w doc : Json}
  {location : Location} {items : List Json} {members : List (String × Json)}

theorem Segment.Leads.at? (leads : segment.Leads v location w) : v.at? location = some w := by
  induction leads with
  | member found => rw [Json.at?_single]; exact found
  | through stands _ ih => rw [Json.at?_cons_eq_some_iff]; exact ⟨_, stands, ih⟩
  | index _ stands => rw [Json.at?_single]; exact stands
  | anyMember found => rw [Json.at?_single]; exact found
  | anyItem stands => rw [Json.at?_single]; exact stands

theorem Path.Leads.at? (leads : path.Leads v location w) : v.at? location = some w := by
  induction leads with
  | here => rfl
  | step first _ ih => rw [Json.at?_append, first.at?]; exact ih

theorem membersNamedIn_eq (name : String) (items : List Json) :
    membersNamedIn name items = items.flatMap (membersNamed name) := by
  induction items with
  | nil => rfl
  | cons item rest ih => rw [membersNamedIn, ih, List.flatMap_cons]

theorem listed_items (items : List Json) :
    Listed Before (fun l v => ∃ i, items[i]? = some v ∧ l = [.item i]) items := by
  refine ⟨items.zipIdx.map fun (v, i) => ([.item i], v), ?_, fun l v => ?_, ?_⟩
  · rw [List.map_map]
    exact List.zipIdx_map_fst 0 items
  · simp only [List.mem_map, Prod.exists, Prod.mk.injEq, List.mem_zipIdx_iff_getElem?]
    constructor
    · rintro ⟨_, i, stands, rfl, rfl⟩
      exact ⟨i, stands, rfl⟩
    · rintro ⟨i, stands, rfl⟩
      exact ⟨v, i, stands, rfl, rfl⟩
  · have indices : (items.zipIdx.map (·.2)).Pairwise (· < ·) := by
      rw [List.zipIdx_map_snd]
      exact List.pairwise_lt_range'
    rw [List.pairwise_map] at indices ⊢
    exact indices.imp fun lt => .parted (.item lt)

theorem listed_members (ascending : members.Pairwise fun member other => member.1 < other.1) :
    Listed Before (fun l v => ∃ key, Entries.get? key members = some v ∧ l = [.member key])
      (members.map (·.2)) := by
  refine ⟨members.map fun member => ([.member member.1], member.2), ?_, fun l v => ?_, ?_⟩
  · rw [List.map_map]
    rfl
  · simp only [List.mem_map, Prod.exists, Prod.mk.injEq, Entries.get?_eq_some_iff ascending]
    constructor
    · rintro ⟨key, _, mem, rfl, rfl⟩
      exact ⟨key, mem, rfl⟩
    · rintro ⟨key, mem, rfl⟩
      exact ⟨key, v, mem, rfl, rfl⟩
  · rw [List.pairwise_map]
    exact ascending.imp fun lt => .parted (.member lt)

theorem listed_membersNamed (name : String) (v : Json) :
    Listed Before (Segment.Leads (.key name) v) (membersNamed name v) := by
  induction v using Json.value_induction with
  | scalar v array object =>
    have none : membersNamed name v = [] := by
      cases v with
      | array items => exact absurd rfl (array items)
      | object members => exact absurd rfl (object members)
      | _ => rfl
    rw [none]
    refine listed_nil fun location w leads => ?_
    cases leads with
    | member => exact object _ rfl
    | through => exact array _ rfl
  | object members =>
    rw [membersNamed]
    cases found : Entries.get? name members with
    | none =>
      refine listed_nil fun location w leads => ?_
      cases leads with
      | member found' => simp [found] at found'
    | some v =>
      refine (listed_single [.member name] v).congr fun location w => ⟨?_, fun leads => ?_⟩
      · rintro ⟨rfl, rfl⟩
        exact .member found
      · cases leads with
        | member found' => exact ⟨rfl, Option.some.inj (found'.symm.trans found)⟩
  | array items ih =>
    rw [membersNamed, membersNamedIn_eq]
    have each {l v} (stands : ∃ i, items[i]? = some v ∧ l = [Move.item i]) :
        Listed Before (Segment.Leads (.key name) v) (membersNamed name v) := by
      obtain ⟨i, stands, -⟩ := stands
      exact ih v (List.mem_of_getElem? stands)
    refine ((listed_items items).flatMap each (fun before _ _ _ _ => before.extend _ _)
      (fun l before => before.behind l)).congr fun location w => ⟨?_, fun leads => ?_⟩
    · rintro ⟨_, v, k, ⟨i, stands, rfl⟩, leads, rfl⟩
      exact .through stands leads
    · cases leads with
      | through stands onward => exact ⟨_, _, _, ⟨_, stands, rfl⟩, onward, rfl⟩

theorem listed_itemAt (n : Int) (items : List Json) :
    Listed Before (Segment.Leads (.index n) (.array items)) (itemAt n items) := by
  -- the place is the one index at which the item can stand
  have place (i : Nat) : (n = i ∨ n < 0 ∧ items.length + n = i) ↔
      (if n < 0 then items.length + n else n) = i := by
    split <;> omega
  unfold itemAt
  dsimp only
  generalize (if n < 0 then items.length + n else n) = target at place
  split
  next counted =>
    cases stands : items[target.toNat]? with
    | none =>
      refine listed_nil fun location w leads => ?_
      cases leads with
      | @index _ _ _ i same stands' =>
        have here := (place i).mp same
        rw [show target.toNat = i by omega, stands'] at stands
        cases stands
    | some item =>
      refine (listed_single [.item target.toNat] item).congr fun location w => ⟨?_, fun leads => ?_⟩
      · rintro ⟨rfl, rfl⟩
        exact .index ((place _).mpr (by omega)) stands
      · cases leads with
        | @index _ _ _ i same stands' =>
          have here : target.toNat = i := by
            have := (place i).mp same
            omega
          rw [here] at stands
          exact ⟨by rw [here], Option.some.inj (stands'.symm.trans stands)⟩
  next outside =>
    refine listed_nil fun location w leads => ?_
    cases leads with
    | @index _ _ _ i same =>
      have := (place i).mp same
      omega

/-- A segment selects the values to which it leads. -/
theorem listed_apply (plain : ∀ name, segment ≠ .descendant name) (ordered : v.InOrder) :
    Listed Before (segment.Leads v) (segment.apply v) := by
  cases segment with
  | descendant name => exact absurd rfl (plain name)
  | key name => exact listed_membersNamed name v
  | index n =>
    cases v with
    | array items => exact listed_itemAt n items
    | _ => exact listed_nil nofun
  | wildcard =>
    cases v with
    | array items =>
      refine (listed_items items).congr fun location w => ⟨?_, fun leads => ?_⟩
      · rintro ⟨i, stands, rfl⟩
        exact .anyItem stands
      · cases leads with
        | anyItem stands => exact ⟨_, stands, rfl⟩
    | object members =>
      refine (listed_members ordered.ascending).congr fun location w => ⟨?_, fun leads => ?_⟩
      · rintro ⟨key, found, rfl⟩
        exact .anyMember found
      · cases leads with
        | anyMember found => exact ⟨_, found, rfl⟩
    | _ => exact listed_nil nofun

/-- A path selects the values to which its segments lead. -/
theorem listed_select (plain : ∀ name, .descendant name ∉ path) (ordered : v.InOrder) :
    Listed Before (path.Leads v) (path.select v) := by
  induction path generalizing v with
  | nil =>
    refine (listed_single [] v).congr fun location w => ⟨?_, fun leads => ?_⟩
    · rintro ⟨rfl, rfl⟩
      exact .here
    · cases leads
      exact ⟨rfl, rfl⟩
  | cons segment path ih =>
    have first : ∀ name, segment ≠ .descendant name := fun name same => plain name (by simp [same])
    have later : ∀ name, .descendant name ∉ path :=
      fun name mem => plain name (List.mem_cons_of_mem _ mem)
    have each {l u} (leads : segment.Leads v l u) :
        Listed Before (Path.Leads path u) (Path.select path u) :=
      ih later (ordered.of_at? leads.at?)
    refine ((listed_apply first ordered).flatMap each (fun before _ _ _ _ => before.extend _ _)
      (fun l before => before.behind l)).congr fun location w => ⟨?_, fun leads => ?_⟩
    · rintro ⟨l, u, k, leads, onward, rfl⟩
      exact .step leads onward
    · cases leads with
      | step leads onward => exact ⟨_, _, _, leads, onward, rfl⟩

end Segments

/-! ### Descendants -/

section Descendants
variable {name : String} {path : Path} {v w doc : Json} {location : Location}
  {members : List (String × Json)}

theorem descendantsInItems_eq (name : String) (items : List Json) :
    descendantsInItems name items = items.flatMap (descendantsNamed name) := by
  induction items with
  | nil => rfl
  | cons item rest ih => rw [descendantsInItems, ih, List.flatMap_cons]

theorem descendantsInMembers_eq (name : String) (members : List (String × Json)) :
    descendantsInMembers name members = (members.map (·.2)).flatMap (descendantsNamed name) := by
  induction members with
  | nil => rfl
  | cons member rest ih => rw [descendantsInMembers, ih, List.map_cons, List.flatMap_cons]

/-- What is beneath a value is a member of it, or beneath a value that it holds. -/
theorem beneath_iff : Beneath name v location w ↔
    (∃ key, v.child? (.member key) = some w ∧ (name = "*" ∨ key = name) ∧
      location = [.member key]) ∨
    ∃ move child rest, v.child? move = some child ∧ Beneath name child rest w ∧
      location = move :: rest := by
  constructor
  · rintro ⟨objects, key, rfl, named, found⟩
    cases objects with
    | nil => exact .inl ⟨key, by rwa [← Json.at?_single], named, rfl⟩
    | cons move objects =>
      obtain ⟨child, here, found⟩ := Json.at?_cons_eq_some_iff.mp found
      exact .inr ⟨move, child, _, here, ⟨objects, key, rfl, named, found⟩, rfl⟩
  · rintro (⟨key, found, named, rfl⟩ |
      ⟨move, child, _, here, ⟨objects, key, rfl, named, found⟩, rfl⟩)
    · exact ⟨[], key, rfl, named, by rwa [Json.at?_single]⟩
    · exact ⟨move :: objects, key, rfl, named, Json.at?_cons_eq_some_iff.mpr ⟨child, here, found⟩⟩

theorem Beneath.filled (beneath : Beneath name v location w) : location ≠ [] := by
  obtain ⟨objects, key, rfl, -⟩ := beneath
  simp

theorem listed_ownMembers (name : String)
    (ascending : members.Pairwise fun member other => member.1 < other.1) :
    Listed OwnFirst (fun l v => ∃ key, Entries.get? key members = some v ∧
      (name = "*" ∨ key = name) ∧ l = [.member key]) (ownMembers name members) := by
  unfold ownMembers
  split
  next star =>
    refine ((listed_members ascending).mono ?_).congr fun l v => by simp [star]
    rintro _ _ _ _ ⟨key, -, rfl⟩ ⟨key', -, rfl⟩ before
    cases before with
    | parted lt => exact .parted lt fun _ => rfl
    | onward later => cases later
  next named =>
    cases found : Entries.get? name members with
    | none =>
      refine listed_nil fun l v => ?_
      rintro ⟨key, found', same, -⟩
      obtain rfl := same.resolve_left named
      simp [found] at found'
    | some u =>
      refine (listed_single [.member name] u).congr fun l v => ⟨?_, ?_⟩
      · rintro ⟨rfl, rfl⟩
        exact ⟨name, found, .inr rfl, rfl⟩
      · rintro ⟨key, found', same, rfl⟩
        obtain rfl := same.resolve_left named
        exact ⟨rfl, Option.some.inj (found'.symm.trans found)⟩

/-- The descendants of a value are the members beneath it. -/
theorem listed_descendantsNamed (name : String) (ordered : v.InOrder) :
    Listed OwnFirst (Beneath name v) (descendantsNamed name v) := by
  induction v using Json.value_induction with
  | scalar v array object =>
    have none : descendantsNamed name v = [] := by
      cases v with
      | array items => exact absurd rfl (array items)
      | object members => exact absurd rfl (object members)
      | _ => rfl
    rw [none]
    refine listed_nil fun location w beneath => ?_
    have child := Json.child?_scalar array object
    rcases beneath_iff.mp beneath with ⟨key, found, -⟩ | ⟨move, _, _, found, -⟩
    · simp [child] at found
    · simp [child] at found
  | array items ih =>
    rw [descendantsNamed, descendantsInItems_eq]
    have each {l v} (stands : ∃ i, items[i]? = some v ∧ l = [Move.item i]) :
        Listed OwnFirst (Beneath name v) (descendantsNamed name v) := by
      obtain ⟨i, stands, -⟩ := stands
      exact ih v (List.mem_of_getElem? stands) (ordered.of_child? (.item i) stands)
    refine ((listed_items items).flatMap each
      (fun before _ _ _ deeper => before.ownFirst _ deeper.filled)
      (fun l first => first.behind l)).congr fun location w => ?_
    rw [beneath_iff]
    constructor
    · rintro ⟨_, v, k, ⟨i, stands, rfl⟩, beneath, rfl⟩
      exact .inr ⟨.item i, v, k, stands, beneath, rfl⟩
    · rintro (⟨key, found, -⟩ | ⟨move, child, rest, found, beneath, rfl⟩)
      · cases found
      · cases move with
        | member key => cases found
        | item i => exact ⟨_, child, rest, ⟨i, found, rfl⟩, beneath, rfl⟩
  | object members ih =>
    rw [descendantsNamed, descendantsInMembers_eq]
    have ascending := ordered.ascending
    have each {l v} (stands : ∃ key, Entries.get? key members = some v ∧ l = [Move.member key]) :
        Listed OwnFirst (Beneath name v) (descendantsNamed name v) := by
      obtain ⟨key, found, -⟩ := stands
      exact ih (key, v) ((Entries.get?_eq_some_iff ascending).mp found)
        (ordered.of_child? (.member key) found)
    have nested := (listed_members ascending).flatMap each
      (fun before _ _ _ deeper => before.ownFirst _ deeper.filled)
      (fun l first => first.behind l)
    refine ((listed_ownMembers name ascending).append nested ?_).congr fun location w => ?_
    · rintro _ v _ w ⟨key, -, -, rfl⟩ ⟨_, _, k, ⟨key', -, rfl⟩, beneath, rfl⟩
      obtain ⟨move, rest, rfl⟩ := List.exists_cons_of_ne_nil beneath.filled
      exact .own
    · rw [beneath_iff]
      refine or_congr Iff.rfl ⟨?_, ?_⟩
      · rintro ⟨_, v, k, ⟨key, found, rfl⟩, beneath, rfl⟩
        exact ⟨.member key, v, k, found, beneath, rfl⟩
      · rintro ⟨move, child, rest, found, beneath, rfl⟩
        cases move with
        | member key => exact ⟨_, child, rest, ⟨key, found, rfl⟩, beneath, rfl⟩
        | item i => cases found

theorem select_append (path later : Path) (v : Json) :
    Path.select (path ++ later) v = (path.select v).flatMap later.select := by
  induction path generalizing v with
  | nil => rw [List.nil_append, Path.select, List.flatMap_singleton]
  | cons segment path ih =>
    rw [List.cons_append, Path.select, Path.select, List.flatMap_assoc]
    exact List.flatMap_congr fun u _ => ih u

/-- One segment selects the values that it reaches. -/
theorem select_single (segment : Segment) (v : Json) :
    Path.select [segment] v = segment.apply v :=
  List.flatMap_singleton' _

theorem select_descendant (name : String) (v : Json) :
    Path.select [.descendant name] v = descendantsNamed name v :=
  select_single (.descendant name) v

end Descendants

/-- A path without descendants selects the values at the locations to which its segments lead, each
location once and in the order of the document. With a descendant at its end it selects the members
of that name at any depth beneath these, each once and those of an object before those within. -/
theorem select_lists_locations (doc : Json) (ordered : doc.InOrder) (path : Path)
    (plain : ∀ name, .descendant name ∉ path) :
    Lists doc Before (fun location => ∃ v, path.Leads doc location v) (path.select doc) ∧
      ∀ name, Lists doc OwnFirst
        (fun location => ∃ w base v rest, path.Leads doc base v ∧ Beneath name v rest w ∧
          location = base ++ rest)
        (Path.select (path ++ [.descendant name]) doc) := by
  have listed := listed_select plain ordered
  refine ⟨listed.lists Before.irrefl fun location v leads => leads.at?, fun name => ?_⟩
  rw [select_append]
  have each {l v} (leads : path.Leads doc l v) :
      Listed OwnFirst (Beneath name v) (Path.select [.descendant name] v) := by
    rw [select_descendant]
    exact listed_descendantsNamed name (ordered.of_at? leads.at?)
  refine (listed.flatMap each (fun before _ _ _ deeper => before.ownFirst _ deeper.filled)
    (fun l first => first.behind l)).lists OwnFirst.irrefl ?_
  rintro _ w ⟨base, v, rest, leads, ⟨objects, key, rfl, -, found⟩, rfl⟩
  rw [Json.at?_append, leads.at?]
  exact found

/-- Names in objects, in an array and within one another. -/
def nestedNames : Json :=
  .array [.object [("more", .array [.object [("name", .string "b")]]), ("name", .string "a")],
    .array [.object [("name", .string "c")]]]

theorem nestedNames_listed :
    nestedNames.InOrder ∧ (∀ name, .descendant name ∉ [Segment.key "name"]) ∧
      Lists nestedNames Before
        (fun location => ∃ v, Path.Leads [.key "name"] nestedNames location v)
        [.string "a", .string "c"] ∧
      Lists nestedNames OwnFirst
        (fun location => ∃ w base v rest, Path.Leads [.wildcard] nestedNames base v ∧
          Beneath "name" v rest w ∧ location = base ++ rest)
        [.string "a", .string "b", .string "c"] := by
  have one (name : String) : (Json.object [("name", .string name)]).InOrder :=
    Json.inOrder_ofMembers (List.forall_mem_singleton.mpr (Json.inOrder_scalar nofun nofun) :
      ∀ member ∈ [("name", Json.string name)], member.2.InOrder)
  have ordered : nestedNames.InOrder := by
    refine Json.inOrder_array
      (List.forall_mem_cons.mpr ⟨?_, List.forall_mem_singleton.mpr ?_⟩)
    · have held : ∀ member ∈ [("more", Json.array [.object [("name", .string "b")]]),
          ("name", .string "a")], member.2.InOrder :=
        List.forall_mem_cons.mpr ⟨Json.inOrder_array (by simpa using one "b"),
          List.forall_mem_singleton.mpr (Json.inOrder_scalar nofun nofun)⟩
      exact Json.inOrder_ofMembers held
    · exact Json.inOrder_array (by simpa using one "c")
  have named := select_lists_locations nestedNames ordered [.key "name"] (by simp)
  have within := select_lists_locations nestedNames ordered [.wildcard] (by simp)
  exact ⟨ordered, by simp, named.1, within.2 "name"⟩

end CatalogGraph.JsonPath
