import Mathlib
import CatalogGraph.Harvest.Sampling
import CatalogGraph.Proofs.ListingPages

/-!
States of a harvest under any operations: pages are taken up, identifiers added one by one, and
samples kept in between. What a state lists and what it knows are changed apart, and still agree.
-/
namespace CatalogGraph.Harvest

section Choices
variable {places : List Nat} {count size : Nat}

/-- So many places below a count, none of them twice. -/
structure IsChoice (places : List Nat) (count size : Nat) : Prop where
  length : places.length = size
  nodup : places.Nodup
  below : ∀ place ∈ places, place < count

theorem IsChoice.perm {others : List Nat} (choice : IsChoice places count size)
    (perm : others.Perm places) : IsChoice others count size where
  length := perm.length_eq.trans choice.length
  nodup := perm.nodup_iff.mpr choice.nodup
  below place mem := choice.below place (perm.mem_iff.mp mem)

theorem IsChoice.mergeSort (choice : IsChoice places count size) :
    IsChoice (places.mergeSort (· ≤ ·)) count size :=
  choice.perm (places.mergeSort_perm (· ≤ ·))

/-- Sorted, the places stand in the order of all places. -/
theorem IsChoice.mergeSort_sublist (choice : IsChoice places count size) :
    (places.mergeSort (· ≤ ·)).Sublist (List.range count) := by
  have among : (places.mergeSort (· ≤ ·)).Subperm (List.range count) :=
    List.subperm_of_subset choice.mergeSort.nodup fun place mem =>
      List.mem_range.mpr (choice.mergeSort.below place mem)
  have sorted : (places.mergeSort (· ≤ ·)).Pairwise (· ≤ ·) :=
    List.pairwise_mergeSort' (· ≤ ·) places
  exact List.sublist_of_subperm_of_pairwise among sorted List.pairwise_le_range

theorem randNat_lt (positive : 0 < count) (random : StdGen) :
    (randNat random 0 (count - 1)).1 < count := by
  have below (drawn : Nat) : 0 + drawn % (count - 1 - 0 + 1) < count := by
    have reduced : drawn % (count - 1 - 0 + 1) < count - 1 - 0 + 1 := Nat.mod_lt _ (by omega)
    omega
  unfold randNat
  simp only [gt_iff_lt, Nat.not_lt_zero, if_false]
  apply below

theorem drawPlaces_succ {left : Nat} {random : StdGen}
    (short : (randNat random 0 (places.length - 1)).1 < places.length) :
    drawPlaces (left + 1) places random =
      places[(randNat random 0 (places.length - 1)).1] ::
        drawPlaces left (places.eraseIdx (randNat random 0 (places.length - 1)).1)
          (randNat random 0 (places.length - 1)).2 := by
  simp only [drawPlaces, List.getElem?_eq_getElem short]

/-- As many places are drawn as are asked for, out of those that there are. -/
theorem drawPlaces_subperm {left : Nat} (enough : left ≤ places.length) (random : StdGen) :
    (drawPlaces left places random).length = left ∧
      (drawPlaces left places random).Subperm places := by
  induction left generalizing places random with
  | zero => exact ⟨rfl, List.nil_subperm⟩
  | succ left ih =>
    have left_place : 0 < places.length := Nat.zero_lt_of_lt enough
    have short := randNat_lt left_place random
    rw [drawPlaces_succ short]
    generalize (randNat random 0 (places.length - 1)).1 = i at short
    have enough' : left ≤ (places.eraseIdx i).length := by
      rw [List.length_eraseIdx_of_lt short]
      omega
    obtain ⟨length, among⟩ := ih enough' (randNat random 0 (places.length - 1)).2
    refine ⟨congrArg (· + 1) length, ?_⟩
    exact ((List.subperm_cons _).mpr among).trans (List.getElem_cons_eraseIdx_perm short).subperm

/-- The places that are drawn from a seed are a choice. -/
theorem isChoice_drawing (fallback : Nat) (seed : Option Nat) (within : size ≤ count) :
    IsChoice (drawing fallback seed count size) count size := by
  have enough : size ≤ (List.range count).length := by rwa [List.length_range]
  obtain ⟨length, kept, perm, sublist⟩ := drawPlaces_subperm enough (mkStdGen (seed.getD fallback))
  exact {
    length
    nodup := perm.nodup_iff.mp (sublist.nodup List.nodup_range)
    below := fun place mem => List.mem_range.mp (sublist.subset (perm.mem_iff.mpr mem)) }

end Choices

namespace HarvestState

section Samples
variable {places : List Nat} {texts : List String} {size : Nat}

/-- No place is asked twice, so none is asked after its text has been moved out. -/
theorem moveOut_eq_map (nodup : places.Nodup) (texts : List String) :
    moveOut places texts = places.map (texts.getD · "") := by
  induction places generalizing texts with
  | nil => rfl
  | cons place rest ih =>
    obtain ⟨fresh, nodup'⟩ := List.nodup_cons.mp nodup
    have kept : ∀ other ∈ rest, (texts.set place "").getD other "" = texts.getD other "" := by
      intro other mem
      have apart : place ≠ other := fun same => fresh (same ▸ mem)
      simp [List.getElem?_set_ne apart]
    rw [moveOut, ih nodup', List.map_congr_left kept, List.map_cons]

theorem mem_moveOut (choice : IsChoice places texts.length size) (text : String) :
    text ∈ moveOut (places.mergeSort (· ≤ ·)) texts ↔
      ∃ place ∈ places, texts[place]? = some text := by
  rw [moveOut_eq_map choice.mergeSort.nodup, List.mem_map]
  refine exists_congr fun place => ?_
  rw [List.mem_mergeSort]
  refine and_congr_right fun mem => ?_
  simp [List.getElem?_eq_getElem (choice.below place mem)]

theorem moveOut_sublist (choice : IsChoice places texts.length size) :
    (moveOut (places.mergeSort (· ≤ ·)) texts).Sublist texts ∧
      (moveOut (places.mergeSort (· ≤ ·)) texts).length = size := by
  have whole : (List.range texts.length).map (texts.getD · "") = texts := by
    apply List.ext_getElem (by simp)
    intro i _ short
    simp [List.getElem?_eq_getElem short]
  rw [moveOut_eq_map choice.mergeSort.nodup]
  constructor
  · simpa only [whole] using choice.mergeSort_sublist.map (texts.getD · "")
  · rw [List.length_map, choice.mergeSort.length]

end Samples

section Operations
variable {state : HarvestState}

theorem isCoherent_start : IsCoherent {} where
  nodup := List.nodup_nil
  contains_iff identifier := by simp [contains]

theorem IsCoherent.absorb (coherent : state.IsCoherent) (page : ListingPage) :
    (state.absorb page).IsCoherent := by
  obtain ⟨nodup, contains_iff⟩ := (coherent.foldl_add page.identifiers).1
  exact ⟨nodup, contains_iff⟩

theorem IsCoherent.identifiers_absorb (coherent : state.IsCoherent) (page : ListingPage) :
    (state.absorb page).identifiers = (state.identifiers ++ page.identifiers).eraseDups :=
  (coherent.foldl_add page.identifiers).2

theorem length_foldl_add (state : HarvestState) (identifiers : List String) :
    (identifiers.foldl HarvestState.add state).identifiers.length =
      state.identifiers.length + state.countNew identifiers := by
  induction identifiers generalizing state with
  | nil => rfl
  | cons identifier rest ih =>
    rw [List.foldl_cons, ih, countNew, add]
    split
    · simp
    · simp [Nat.add_assoc]

theorem length_absorb (state : HarvestState) (page : ListingPage) :
    (state.absorb page).identifiers.length =
      state.identifiers.length + state.countNew page.identifiers :=
  length_foldl_add state page.identifiers

/-- The places that are given for a sample are a choice, if one has to be made. -/
def Chosen (state : HarvestState) (size : Nat) (places : List Nat) : Prop :=
  size < state.identifiers.length → IsChoice places state.identifiers.length size

theorem sample_sublist {size : Nat} {places : List Nat} (chosen : state.Chosen size places) :
    (state.sample size places).identifiers.Sublist state.identifiers ∧
      (state.sample size places).identifiers.length = min size state.identifiers.length := by
  unfold sample
  split
  · next few => exact ⟨List.Sublist.refl _, (Nat.min_eq_right few).symm⟩
  · next many =>
    have below : size < state.identifiers.length := Nat.lt_of_not_le many
    obtain ⟨sublist, length⟩ := moveOut_sublist (chosen below)
    exact ⟨sublist, length.trans (Nat.min_eq_left (Nat.le_of_lt below)).symm⟩

theorem mem_sample {size : Nat} {places : List Nat} (chosen : state.Chosen size places)
    (below : size < state.identifiers.length) (identifier : String) :
    identifier ∈ (state.sample size places).identifiers ↔
      ∃ place ∈ places, state.identifiers[place]? = some identifier := by
  rw [sample, if_neg (Nat.not_le_of_lt below)]
  exact mem_moveOut (chosen below) identifier

theorem IsCoherent.sample {size : Nat} {places : List Nat} (coherent : state.IsCoherent)
    (chosen : state.Chosen size places) : (state.sample size places).IsCoherent where
  nodup := coherent.nodup.sublist (sample_sublist chosen).1
  contains_iff identifier := by
    unfold HarvestState.sample
    split
    · exact coherent.contains_iff identifier
    · exact List.contains_iff_mem

/-- What can be done with a state. The places of a sample are what the random source gives. -/
inductive Operation where
  | add (identifier : String)
  | absorb (page : ListingPage)
  | sample (size : Nat) (places : List Nat)

def Operation.apply (state : HarvestState) : Operation → HarvestState
  | .add identifier => state.add identifier
  | .absorb page => state.absorb page
  | .sample size places => state.sample size places

def Operation.IsSound (state : HarvestState) : Operation → Prop
  | .sample size places => state.Chosen size places
  | .add _ | .absorb _ => True

/-- Each operation is sound in the state that the ones before it have left. -/
def AreSound : HarvestState → List Operation → Prop
  | _, [] => True
  | state, operation :: rest => operation.IsSound state ∧ AreSound (operation.apply state) rest

theorem IsCoherent.apply (coherent : state.IsCoherent) {operation : Operation}
    (sound : operation.IsSound state) : (operation.apply state).IsCoherent := by
  cases operation with
  | add identifier => exact coherent.add identifier
  | absorb page => exact coherent.absorb page
  | sample size places => exact coherent.sample sound

theorem IsCoherent.foldl_apply (coherent : state.IsCoherent) {operations : List Operation}
    (sound : AreSound state operations) : (operations.foldl Operation.apply state).IsCoherent := by
  induction operations generalizing state with
  | nil => exact coherent
  | cons operation rest ih => exact ih (coherent.apply sound.1) sound.2

/-- After any operations a state lists what it knows, each identifier once: a page is appended with
what is new in it, and a sample keeps so many identifiers in their order, those in the places that
were chosen. -/
theorem operations_list_what_is_known {operations : List Operation}
    (sound : AreSound {} operations) :
    let state : HarvestState := operations.foldl Operation.apply {}
    state.identifiers.Nodup ∧
    (∀ identifier, state.contains identifier ↔ identifier ∈ state.identifiers) ∧
    (∀ page, (state.absorb page).identifiers.length =
        state.identifiers.length + state.countNew page.identifiers ∧
      state.identifiers <+: (state.absorb page).identifiers ∧
      ∀ identifier, identifier ∈ (state.absorb page).identifiers ↔
        identifier ∈ state.identifiers ∨ identifier ∈ page.identifiers) ∧
    (∀ size places, state.Chosen size places →
      (state.sample size places).identifiers.Sublist state.identifiers ∧
      (state.sample size places).identifiers.length = min size state.identifiers.length ∧
      (size < state.identifiers.length →
        ∀ identifier, identifier ∈ (state.sample size places).identifiers ↔
          ∃ place ∈ places, state.identifiers[place]? = some identifier)) := by
  intro state
  have coherent : state.IsCoherent := isCoherent_start.foldl_apply sound
  refine ⟨coherent.nodup, coherent.contains_iff, fun page => ⟨length_absorb state page, ?_⟩, ?_⟩
  · rw [coherent.identifiers_absorb]
    constructor
    · rw [List.eraseDups_append, eraseDups_of_nodup coherent.nodup]
      exact List.prefix_append _ _
    · intro identifier
      rw [List.mem_eraseDups, List.mem_append]
  · intro size places chosen
    obtain ⟨sublist, length⟩ := sample_sublist chosen
    exact ⟨sublist, length, mem_sample chosen⟩

/-- A sample drops `"b"`, which is new again in the page behind it. -/
def resampled : List Operation :=
  [.absorb { identifiers := ["a", "b", "a", "c"] }, .sample 2 [2, 0],
    .absorb { identifiers := ["c", "b", "a"] }]

theorem resampled_list_what_is_known :
    let state : HarvestState := resampled.foldl Operation.apply {}
    state.identifiers = ["a", "c", "b"] ∧ state.identifiers.Nodup ∧ state.contains "b" ∧
      ["a", "c", "b"] <+: (state.absorb { identifiers := ["b", "d"] }).identifiers ∧
      (state.sample 1 (drawing 7 none 3 1)).identifiers.length = 1 := by
  intro state
  have sound : AreSound {} resampled :=
    ⟨trivial, fun _ => ⟨rfl, by decide, by decide⟩, trivial, trivial⟩
  have listed : state.identifiers = ["a", "c", "b"] := by cbv
  have three : state.identifiers.length = 3 := congrArg List.length listed
  have drawn : state.Chosen 1 (drawing 7 none 3 1) := by
    intro _
    rw [three]
    exact isChoice_drawing 7 none (by decide)
  obtain ⟨nodup, known, grows, samples⟩ := operations_list_what_is_known sound
  refine ⟨listed, nodup, (known "b").mpr ?_, ?_, ?_⟩
  · rw [listed]
    decide
  · rw [← listed]
    exact (grows { identifiers := ["b", "d"] }).2.1
  · rw [(samples 1 _ drawn).2.1, three]
    rfl

end Operations
end HarvestState
end CatalogGraph.Harvest
