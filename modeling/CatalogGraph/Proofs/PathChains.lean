import CatalogGraph.Proofs.FirstOccurrences
import CatalogGraph.XPath.Select
import Mathlib.Data.List.Lex
import Mathlib.Order.Basic

/-!
Chains of moves: a path selects the items at which its chains end, in lexicographic order of the
moves and without later repeats. It does not matter whether repeats are dropped after each step.
-/
namespace CatalogGraph.XPath
open Xml (Document Item)

/-- The item from which the first step of a path is made. -/
def origin (absolute : Bool) (item : Item) : Item :=
  if absolute then .element Xml.documentId else item

mutual

/-- Where the chains of a path end, in order and with repeats. -/
def LocationPath.ends (d : Document) : LocationPath → Item → List Item
  | .mk absolute steps, item => chainEnds d steps (origin absolute item)

/-- Where the chains of steps end that start at an item. -/
def chainEnds (d : Document) : List Step → Item → List Item
  | [], item => [item]
  | step :: rest, item => (step.moves d item).flatMap fun next => chainEnds d rest next

/-- The items to which a chain may move by a step. -/
def Step.moves (d : Document) : Step → Item → List Item
  | .mk axis test predicates, item => survivors d predicates (axisItems d item axis test)

/-- The items that survive predicates, of which each sees what the ones before it leave. -/
def survivors (d : Document) : List Predicate → List Item → List Item
  | [], items => items
  | predicate :: rest, items => survivors d rest (predicate.leaves d items)

/-- The items that survive a predicate; places count from 1. -/
def Predicate.leaves (d : Document) : Predicate → List Item → List Item
  | .position n, items => ((items.zipIdx 1).filter fun (_, place) => place == n).map (·.1)
  | .filter condition, items => items.filter fun item => condition.isTrue d item

/-- Whether a condition is true at an item. -/
def Condition.isTrue (d : Document) : Condition → Item → Bool
  | .present path, item => !(path.ends d item).isEmpty
  | .equals path value, item =>
    (path.ends d item).any fun found => Text.trim (d.stringValue found) == value
  | .differs path value, item =>
    (path.ends d item).any fun found => Text.trim (d.stringValue found) != value
  | .not inner, item => !inner.isTrue d item
  | .and left right, item => left.isTrue d item && right.isTrue d item
  | .or left right, item => left.isTrue d item || right.isTrue d item

end

theorem newItems_eq (seen items : List Item) :
    newItems seen items = (items.filter fun item => !seen.contains item).eraseDups := by
  induction items generalizing seen with
  | nil => rfl
  | cons item rest ih =>
    rw [newItems]
    split
    next known => rw [ih, List.filter_cons_of_neg (by simpa using known)]
    next fresh =>
      rw [ih, List.filter_cons_of_pos (by simpa using fresh), List.eraseDups_cons,
        List.filter_filter]
      congr 2
      apply List.filter_congr
      intro other _
      rw [List.contains_cons, Bool.not_or]

@[simp] theorem newItems_nil (items : List Item) : newItems [] items = items.eraseDups := by
  simp [newItems_eq]

theorem filter_place_eq_nil {items : List Item} {start n : Nat} (before : n < start) :
    (items.zipIdx start).filter (fun (_, place) => place == n) = [] := by
  rw [List.filter_eq_nil_iff]
  rintro ⟨item, place⟩ hm
  have := List.le_snd_of_mem_zipIdx hm
  simp only [beq_iff_eq]
  omega

theorem map_filter_place (items : List Item) (start n : Nat) :
    ((items.zipIdx start).filter fun (_, place) => place == start + n).map (·.1) =
      (items[n]?).toList := by
  induction items generalizing start n with
  | nil => rfl
  | cons item rest ih =>
    cases n with
    | zero => simp [List.zipIdx_cons, filter_place_eq_nil]
    | succ n =>
      have onward := ih (start + 1) n
      rw [show start + 1 + n = start + (n + 1) by omega] at onward
      simpa [List.zipIdx_cons] using onward

theorem atPosition_eq (n : Nat) (items : List Item) :
    atPosition n items = ((items.zipIdx 1).filter fun (_, place) => place == n).map (·.1) := by
  cases n with
  | zero => simp [atPosition, filter_place_eq_nil]
  | succ n => rw [atPosition, ← map_filter_place items 1 n, Nat.add_comm]

theorem isEmpty_eraseDups (items : List Item) : items.eraseDups.isEmpty = items.isEmpty := by
  cases items <;> simp [List.eraseDups_cons]

theorem any_eraseDups (items : List Item) (p : Item → Bool) :
    items.eraseDups.any p = items.any p := by
  rw [Bool.eq_iff_iff]
  simp [List.mem_eraseDups]

mutual

/-- A path selects what its chains end at, each item once. -/
theorem LocationPath.select_eq (d : Document) : ∀ (path : LocationPath) (item : Item),
    path.select d item = (path.ends d item).eraseDups
  | .mk absolute steps, item => by
    have start : [origin absolute item].Nodup := List.nodup_singleton _
    rw [LocationPath.select, ← origin, selectSteps_eq d steps _ start, List.flatMap_singleton,
      LocationPath.ends]

/-- The repeats that are dropped after a step would be dropped after the last one. -/
theorem selectSteps_eq (d : Document) : ∀ (steps : List Step) (items : List Item), items.Nodup →
    selectSteps d steps items = (items.flatMap fun item => chainEnds d steps item).eraseDups
  | [], items, nodup => by
    simp only [selectSteps, chainEnds, List.flatMap_singleton', eraseDups_of_nodup nodup]
  | step :: rest, items, nodup => by
    have moved (item : Item) : step.select d item = step.moves d item := Step.select_eq d step item
    rw [selectSteps, newItems_nil, selectSteps_eq d rest _ (nodup_eraseDups _),
      eraseDups_flatMap_eraseDups, List.flatMap_assoc]
    simp only [moved, chainEnds]

theorem Step.select_eq (d : Document) : ∀ (step : Step) (item : Item),
    step.select d item = step.moves d item
  | .mk axis test predicates, item => by
    rw [Step.select, Step.moves, filterAll_eq d predicates]

theorem filterAll_eq (d : Document) : ∀ (predicates : List Predicate) (items : List Item),
    filterAll d predicates items = survivors d predicates items
  | [], items => by rw [filterAll, survivors]
  | predicate :: rest, items => by
    rw [filterAll, survivors, Predicate.keep_eq d predicate, filterAll_eq d rest]

theorem Predicate.keep_eq (d : Document) : ∀ (predicate : Predicate) (items : List Item),
    predicate.keep d items = predicate.leaves d items
  | .position n, items => by rw [Predicate.keep, Predicate.leaves, atPosition_eq]
  | .filter condition, items => by
    have same (item : Item) : condition.holds d item = condition.isTrue d item :=
      Condition.holds_eq d condition item
    simp only [Predicate.keep, Predicate.leaves, same]

theorem Condition.holds_eq (d : Document) : ∀ (condition : Condition) (item : Item),
    condition.holds d item = condition.isTrue d item
  | .present path, item => by
    rw [Condition.holds, Condition.isTrue, LocationPath.select_eq d path, isEmpty_eraseDups]
  | .equals path value, item => by
    rw [Condition.holds, Condition.isTrue, LocationPath.select_eq d path, any_eraseDups]
  | .differs path value, item => by
    rw [Condition.holds, Condition.isTrue, LocationPath.select_eq d path, any_eraseDups]
  | .not inner, item => by
    rw [Condition.holds, Condition.isTrue, Condition.holds_eq d inner]
  | .and left right, item => by
    rw [Condition.holds, Condition.isTrue, Condition.holds_eq d left, Condition.holds_eq d right]
  | .or left right, item => by
    rw [Condition.holds, Condition.isTrue, Condition.holds_eq d left, Condition.holds_eq d right]

end

/-- A chain of moves by steps: which of the possible moves each step takes, and where it ends. -/
inductive Chain (d : Document) : List Step → Item → List Nat → Item → Prop where
  | done (item : Item) : Chain d [] item [] item
  | move {step : Step} {rest : List Step} {item next last : Item} {place : Nat}
      {places : List Nat} (taken : (step.moves d item)[place]? = some next)
      (onward : Chain d rest next places last) :
      Chain d (step :: rest) item (place :: places) last

/-- The chains of a path from a context item. -/
def LocationPath.Chain (d : Document) : LocationPath → Item → List Nat → Item → Prop
  | .mk absolute steps, item, places, last =>
    XPath.Chain d steps (origin absolute item) places last

/-- The chains of steps from an item, by the moves that they take, and where each ends. -/
def chains (d : Document) : List Step → Item → List (List Nat × Item)
  | [], item => [([], item)]
  | step :: rest, item =>
    (step.moves d item).zipIdx.flatMap fun (next, place) =>
      (chains d rest next).map fun (places, last) => (place :: places, last)

theorem mem_chains_iff {d : Document} {steps : List Step} {item last : Item} {places : List Nat} :
    (places, last) ∈ chains d steps item ↔ Chain d steps item places last := by
  induction steps generalizing item places with
  | nil =>
    rw [chains, List.mem_singleton, Prod.mk.injEq]
    constructor
    · rintro ⟨rfl, rfl⟩
      exact .done last
    · rintro ⟨⟩
      exact ⟨rfl, rfl⟩
  | cons step rest ih =>
    simp only [chains, List.mem_flatMap, List.mem_map, Prod.exists, Prod.mk.injEq,
      List.mem_zipIdx_iff_getElem?]
    constructor
    · rintro ⟨next, place, taken, places, _, onward, rfl, rfl⟩
      exact .move taken (ih.mp onward)
    · rintro ⟨⟩
      next next place places taken onward =>
        exact ⟨next, place, taken, places, last, ih.mpr onward, rfl, rfl⟩

theorem map_chains (d : Document) (steps : List Step) (item : Item) :
    (chains d steps item).map (·.2) = chainEnds d steps item := by
  induction steps generalizing item with
  | nil => rfl
  | cons step rest ih =>
    have onward (taken : Item × Nat) :
        ((chains d rest taken.1).map fun (places, last) => (taken.2 :: places, last)).map (·.2) =
          chainEnds d rest taken.1 := by
      rw [← ih, List.map_map]
      rfl
    rw [chains, chainEnds, List.map_flatMap]
    simp only [onward]
    rw [← List.flatMap_map, List.zipIdx_map_fst]

theorem chains_sorted (d : Document) (steps : List Step) (item : Item) :
    (chains d steps item).Pairwise fun first second => first.1 < second.1 := by
  induction steps generalizing item with
  | nil => exact List.pairwise_singleton _ _
  | cons step rest ih =>
    rw [chains, List.pairwise_flatMap]
    constructor
    · rintro ⟨next, place⟩ _
      rw [List.pairwise_map]
      exact (ih next).imp fun before => List.Lex.cons before
    · have places : ((step.moves d item).zipIdx.map (·.2)).Pairwise (· < ·) := by
        rw [List.zipIdx_map_snd]
        exact List.pairwise_lt_range'
      refine (List.pairwise_map.mp places).imp fun before first hf second hs => ?_
      obtain ⟨_, _, rfl⟩ := List.mem_map.mp hf
      obtain ⟨_, _, rfl⟩ := List.mem_map.mp hs
      exact List.Lex.rel before

/-- The path that goes on with steps from the items of another one. -/
def LocationPath.followedBy : LocationPath → List Step → LocationPath
  | .mk absolute steps, more => .mk absolute (steps ++ more)

theorem selectSteps_append (d : Document) (steps more : List Step) (items : List Item) :
    selectSteps d (steps ++ more) items = selectSteps d more (selectSteps d steps items) := by
  induction steps generalizing items with
  | nil => rfl
  | cons step rest ih => exact ih _

theorem nodup_select (d : Document) (path : LocationPath) (item : Item) :
    (path.select d item).Nodup := by
  rw [path.select_eq d]
  exact nodup_eraseDups _

theorem select_followedBy (d : Document) (path : LocationPath) (more : List Step) (item : Item) :
    (path.followedBy more).select d item =
      ((path.select d item).flatMap fun next =>
        (LocationPath.mk false more).select d next).eraseDups := by
  obtain ⟨absolute, steps⟩ := path
  have nodup := nodup_select d (.mk absolute steps) item
  rw [LocationPath.select] at nodup ⊢
  rw [LocationPath.followedBy, LocationPath.select, selectSteps_append,
    selectSteps_eq d more _ nodup]
  apply eraseDups_flatMap_congr
  intro next _
  rw [LocationPath.select_eq, eraseDups_eraseDups]
  rfl

end CatalogGraph.XPath
