import CatalogGraph.Proofs.PassReports
import CatalogGraph.Proofs.SettledGraphs
import Mathlib.Data.List.Infix

/-!
Contained labels: in the turn of a class longer labels come first, so that under the policy of
containment no label for which a name is minted stands in another one, and a label that stands in
one for which a name was minted gets that of a candidate.
-/
namespace CatalogGraph

open Std

instance : Ord Literal := ⟨Literal.order⟩

theorem Literal.order_eq : Literal.order = compareLex (compareOn (·.datatype))
    (compareLex (compareOn (·.language)) (compareOn (·.value))) := by
  funext a b
  obtain ⟨_, _, language⟩ := a
  obtain ⟨_, _, language'⟩ := b
  cases language <;> cases language' <;> rfl

instance : TransOrd Literal := by
  change TransCmp Literal.order
  rw [Literal.order_eq]
  infer_instance

/-- Terms are compared by kind, and within a kind by their contents. -/
theorem Term.order_eq : Term.order = compareLex (compareOn rank)
    (compareLex (compareOn iri?) (compareLex (compareOn blank?) (compareOn literal?))) := by
  funext a b
  cases a <;> cases b <;> simp [Term.order, compareLex, compareOn, rank, iri?, blank?, literal?] <;>
    rfl

instance : Ord Term := ⟨Term.order⟩

instance : TransOrd Term := by
  change TransCmp Term.order
  rw [Term.order_eq]
  infer_instance

namespace Identity
variable {σ : Type}

/-- Entities are compared by the lengths of their labels, the longer first, then by their labels. -/
def entityOrder : Term × String → Term × String → Ordering :=
  compareLex (fun a b => compare b.2.length a.2.length)
    (compareLex (compareOn (·.2)) (compareOn (·.1)))

instance : TransCmp entityOrder :=
  have lengths : TransCmp (compareOn fun pair : Term × String => pair.2.length) := inferInstance
  have : TransCmp fun a b : Term × String => compare b.2.length a.2.length := lengths.opposite
  inferInstanceAs (TransCmp (compareLex _ _))

theorem comesBefore_eq (a b : Term × String) : comesBefore a b = (entityOrder a b).isLE := rfl

theorem comesBefore_trans (a b c : Term × String) (first : comesBefore a b)
    (second : comesBefore b c) : comesBefore a c := by
  rw [comesBefore_eq] at first second ⊢
  exact TransCmp.isLE_trans first second

theorem comesBefore_total (a b : Term × String) : comesBefore a b || comesBefore b a := by
  have swapped : entityOrder b a = (entityOrder a b).swap := OrientedCmp.eq_swap
  rw [comesBefore_eq, comesBefore_eq, swapped]
  cases entityOrder a b <;> rfl

/-- Longer labels come first. -/
theorem length_le_of_comesBefore {a b : Term × String} (before : comesBefore a b) :
    b.2.length ≤ a.2.length := by
  rw [comesBefore, Ordering.isLE_then_iff_and] at before
  exact Nat.isLE_compare.mp before.1

theorem pairwise_labelledEntities (settings : Settings) (g : Graph) (cls : String) :
    (labelledEntities settings g cls).Pairwise fun a b => b.2.length ≤ a.2.length := by
  unfold labelledEntities
  generalize (transientEntities settings g cls).filterMap _ = entities
  have sorted : (entities.mergeSort comesBefore).Pairwise fun a b => comesBefore a b = true :=
    List.pairwise_mergeSort comesBefore_trans comesBefore_total entities
  exact sorted.imp fun {_ _} before => length_le_of_comesBefore before

section Calls
variable {settings : Settings} {source : CandidateSource σ} {call : Call σ} {a : Assertion}

/-- What a call mints is kept for the class, with the label of the call. -/
theorem Call.kept_of_minted (given : call.outcome settings source = .ok a)
    (minted : a.resolution = .minted) : a.label = call.label ∧
      ∃ iri, ⟨iri, call.label⟩ ∈ (call.after settings source).index.mintedFor call.cls := by
  rw [Call.after, resolveOrMint_index]
  unfold Call.outcome resolveOrMint at given
  split at given
  next => cases given
  next choice _ _ chosen =>
    cases given
    obtain ⟨candidate⟩ | ⟨iri⟩ := choice
    · cases minted
    · refine ⟨rfl, iri, mem_mintedFor_choose.mpr (.inr ⟨rfl, iri, ?_, rfl⟩)⟩
      rw [chosen]

/-- A label that names what was minted before is matched, once the source has answered. -/
theorem Call.matched_of_named (valid : isClassName call.cls) (usable : slug call.label ≠ "")
    {found : List Candidate} (answered : (call.answer source).1 = .ok found) {c : Candidate}
    (known : c ∈ call.before.index.mintedFor call.cls)
    (named : settings.policy.accepts c.label call.label) :
    ∃ a, call.outcome settings source = .ok a ∧ a.resolution = .matched := by
  rcases asked : call.before.index.candidates source call.key call.label call.before.source with
    ⟨e | candidates, index, t⟩
  · rcases answer : call.answer source with ⟨outcome, index', t'⟩
    rw [answer] at answered
    have : outcome = .ok found := answered
    subst this
    unfold Call.answer at answer
    simp [Index.candidates, answer] at asked
  · have offered : c ∈ candidates := Index.mem_candidates (congrArg Prod.fst asked) known
    obtain ⟨chosen, first⟩ : ∃ chosen, candidates.find? (fun c =>
        settings.policy.accepts c.label call.label) = some chosen := by
      rw [← Option.isSome_iff_exists, List.find?_isSome]
      exact ⟨c, offered, named⟩
    unfold Call.key at asked
    simp [Call.outcome, resolveOrMint, choose, valid, usable, asked, first, Choice.resolution]

end Calls

section Turns
variable {settings : Settings} {source : CandidateSource σ} {turn : Turn σ}

/-- The calls of a turn are made for its class and for usable labels. -/
theorem Turn.of_mem_calls {call : Call σ} (member : call ∈ turn.calls settings source) :
    call.cls = turn.cls ∧ slug call.label ≠ "" := by
  have asked : (call.cls, call.entity, call.label) ∈ (turn.calls settings source).map
      fun call => (call.cls, call.entity, call.label) := List.mem_map_of_mem member
  rw [turn.asked settings source, List.mem_map] at asked
  obtain ⟨pair, labelled, same⟩ := asked
  simp only [Prod.mk.injEq] at same
  obtain ⟨cls, rfl⟩ := same
  have usable := slug_of_mem_labelledEntities labelled
  exact ⟨cls.symm, usable⟩

/-- The calls of a turn are made for ever shorter labels. -/
theorem Turn.pairwise_length (turn : Turn σ) : (turn.calls settings source).Pairwise
    fun first second => second.label.length ≤ first.label.length := by
  have labels : (turn.calls settings source).map (·.label) =
      (labelledEntities settings turn.before.graph turn.cls).map (·.2) := by
    simpa [Function.comp_def] using congrArg (List.map (·.2.2)) (turn.asked settings source)
  have sorted := pairwise_labelledEntities settings turn.before.graph turn.cls
  rw [← List.pairwise_map (f := fun pair : Term × String => pair.2)
    (R := fun a b : String => b.length ≤ a.length), ← labels, List.pairwise_map] at sorted
  exact sorted

/-- A label that stands in one for which a name was minted before is matched, once the source has
answered. -/
theorem Turn.pairwise_matched (source : CandidateSource σ) (turn : Turn σ)
    (policy : settings.policy = .contains) (valid : isClassName turn.cls) :
    (turn.calls settings source).Pairwise fun first second =>
      ∀ a found, first.outcome settings source = .ok a → a.resolution = .minted →
        second.label.toList <:+: first.label.toList → (second.answer source).1 = .ok found →
          ∃ b, second.outcome settings source = .ok b ∧ b.resolution = .matched := by
  refine (successive_eachCall _ {} turn.before).chain.pairwise.imp_of_mem ?_
  intro first second hf hs grows a found given minted stands answered
  obtain ⟨cls, -⟩ := turn.of_mem_calls hf
  obtain ⟨cls', usable⟩ := turn.of_mem_calls hs
  obtain ⟨-, iri, kept⟩ := Call.kept_of_minted given minted
  have known : ⟨iri, first.label⟩ ∈ second.before.index.mintedFor second.cls := by
    rw [cls', ← cls]
    exact (grows.minted first.cls).subset kept
  refine Call.matched_of_named (cls' ▸ valid) usable answered known ?_
  rw [policy, MatchPolicy.accepts, Text.occursIn_iff.mpr stands]
  rfl

end Turns

/-- In a pass over a proper class under the policy of containment, from whatever is known before
and whatever lookups fail, no two names are minted for labels of which one stands in the other. An
entity whose label stands in that for which a name was minted gets a known name, if its lookup does
not fail. -/
theorem minted_labels_stand_apart (settings : Settings) (source : CandidateSource σ)
    (cls : String) (s : State σ) (policy : settings.policy = .contains) (valid : isClassName cls) :
    ∃ report t, deduplicate settings source [cls] s = (.ok report, t) ∧
      let calls := Turn.calls settings source ⟨cls, s⟩
      report.assertions = calls.filterMap (·.assertion? settings source) ∧
      (report.assertions.filter (·.resolution = .minted)).Pairwise (fun a b =>
        ¬ a.label.toList <:+: b.label.toList ∧ ¬ b.label.toList <:+: a.label.toList) ∧
      calls.Pairwise fun first second =>
        ∀ a found, first.outcome settings source = .ok a → a.resolution = .minted →
          second.label.toList <:+: first.label.toList → (second.answer source).1 = .ok found →
            ∃ b, second.outcome settings source = .ok b ∧ b.resolution = .matched := by
  obtain ⟨report, t, passed⟩ : ∃ report t, deduplicate settings source [cls] s = (.ok report, t) :=
    deduplicate_of_valid (by simpa using valid)
  have matched := Turn.pairwise_matched source ⟨cls, s⟩ policy valid
  have assertions : report.assertions =
      (Turn.calls settings source ⟨cls, s⟩).filterMap (·.assertion? settings source) := by
    rw [deduplicate_assertions passed, map_passCalls, passCalls, passCalls, List.append_nil]
    rfl
  refine ⟨report, t, passed, assertions, ?_, matched⟩
  rw [assertions, List.pairwise_filter, List.pairwise_filterMap]
  refine ((Turn.pairwise_length ⟨cls, s⟩).and matched).imp ?_
  rintro first second ⟨shorter, matched⟩ a ha b hb minted minted'
  have given : first.outcome settings source = .ok a := Call.assertion?_eq_some_iff.mp ha
  have given' : second.outcome settings source = .ok b := Call.assertion?_eq_some_iff.mp hb
  have minted : a.resolution = .minted := by simpa using minted
  have minted' : b.resolution = .minted := by simpa using minted'
  obtain ⟨label, -⟩ := Call.kept_of_minted given minted
  obtain ⟨label', -⟩ := Call.kept_of_minted given' minted'
  obtain ⟨found, answered, -⟩ := Call.outcome_eq_ok given'
  rw [label, label']
  have apart : ¬ second.label.toList <:+: first.label.toList := by
    intro stands
    obtain ⟨other, again, known⟩ := matched a found given minted stands answered
    rw [given'] at again
    cases again
    rw [minted'] at known
    cases known
  refine ⟨?_, apart⟩
  -- the longer label stands in the shorter only if they are the same
  intro stands
  have same := stands.eq_of_length_le (by simpa [String.length_toList] using shorter)
  exact apart (same ▸ List.infix_rfl)

/-- A service that knows nothing and takes no label with a comma. -/
def commaShy : CandidateSource Unit where
  isCacheable := false
  lookup _ label s :=
    (if label.toList.contains ',' then .error (.status 400 "") else .ok [], s)

/-- Works whose titles stand in each other. -/
def titled : State Unit where
  graph := .ofTriples [
    ⟨.blank "a", .iri Vocabulary.rdfType, .iri "ex:Work"⟩,
    ⟨.blank "a", .iri Vocabulary.rdfsLabel, .string "Moby-Dick; or, The Whale"⟩,
    ⟨.blank "b", .iri Vocabulary.rdfType, .iri "ex:Work"⟩,
    ⟨.blank "b", .iri Vocabulary.rdfsLabel, .string "Moby-Dick"⟩,
    ⟨.blank "c", .iri Vocabulary.rdfType, .iri "ex:Work"⟩,
    ⟨.blank "c", .iri Vocabulary.rdfsLabel, .string "Moby"⟩,
    ⟨.blank "d", .iri Vocabulary.rdfType, .iri "ex:Work"⟩,
    ⟨.blank "d", .iri Vocabulary.rdfsLabel, .string "Omoo"⟩]
  source := ()

theorem labelledEntities_titled : labelledEntities {} titled.graph "ex:Work" =
    [(.blank "a", "Moby-Dick; or, The Whale"), (.blank "b", "Moby-Dick"), (.blank "c", "Moby"),
      (.blank "d", "Omoo")] := by
  have found : ((transientEntities {} titled.graph "ex:Work").filterMap fun entity =>
      (usableLabel? {} titled.graph entity).map fun label => (entity, label)) =
        [(.blank "a", "Moby-Dick; or, The Whale"), (.blank "b", "Moby-Dick"), (.blank "c", "Moby"),
          (.blank "d", "Omoo")] := by decide +kernel
  rw [labelledEntities, found]
  exact List.mergeSort_of_pairwise (by decide +kernel)

theorem titled_stand_apart :
    ({} : Settings).policy = .contains ∧ isClassName "ex:Work" ∧
    ∃ report t, deduplicate {} commaShy ["ex:Work"] titled = (.ok report, t) ∧
      report.assertions.map (fun a => (a.label, a.resolution)) =
        [("Moby-Dick", .minted), ("Moby", .matched), ("Omoo", .minted)] ∧
      (report.assertions.filter (·.resolution = .minted)).Pairwise fun a b =>
        ¬ a.label.toList <:+: b.label.toList ∧ ¬ b.label.toList <:+: a.label.toList := by
  have valid : isClassName "ex:Work" := by decide +kernel
  obtain ⟨report, t, passed, assertions, apart, -⟩ :=
    minted_labels_stand_apart {} commaShy _ titled rfl valid
  refine ⟨rfl, valid, report, t, passed, ?_, apart⟩
  rw [assertions, Turn.calls, labelledEntities_titled]
  decide +kernel

end Identity
end CatalogGraph
