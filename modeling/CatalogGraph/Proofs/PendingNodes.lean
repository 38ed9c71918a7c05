import CatalogGraph.Proofs.BlankNumbers
import CatalogGraph.Proofs.GraphGrowth

/-!
Pending nodes: the statements of a row stand beside the graph until the row is done. Where the maps
of a predicate take the node that a subject has already, the row has linked one fresh node at most
by then, and what else is linked to the same subject a parent of a later map has linked.
-/
namespace CatalogGraph

/-- If the predicate-object map is of predicate `p`, it puts a node of class `c` between the subject
and each value, or takes one that is there. Nothing else that it states is of that predicate. -/
structure PredicateObjectMap.Reuses (p c : String) (pom : PredicateObjectMap) : Prop where
  own : pom.predicate = p →
    pom.isParent = false ∧ pom.subEntityClass = some c ∧ pom.reuse = true
  value : pom.subEntityClass.isSome = true → pom.valuePredicate ≠ p
  additional : pom.subEntityClass.isSome = true → ∀ x ∈ pom.additionalTriples, x.1 ≠ p

/-- Statements link a subject to a blank node by a predicate. -/
structure Links (p : String) (triples : List Triple) (subject node : Term) : Prop where
  blank : node.isBlank = true
  stated : ⟨subject, .iri p, node⟩ ∈ triples

/-- Statements give a node a class. -/
def Typed (c : String) (triples : List Triple) (node : Term) : Prop :=
  ⟨node, .iri Vocabulary.rdfType, .iri c⟩ ∈ triples

/-- No subject has two nodes of the class by the predicate. -/
def SingleNodes (p c : String) (triples : List Triple) : Prop :=
  ∀ subject a b, Links p triples subject a → Typed c triples a →
    Links p triples subject b → Typed c triples b → a = b

/-- No statement links a blank node by the predicate. -/
def Unlinked (p : String) (triples : List Triple) : Prop :=
  ∀ subject node, ¬ Links p triples subject node

section Links
variable {p c : String} {triples more : List Triple} {subject node : Term}

theorem links_append :
    Links p (triples ++ more) subject node ↔
      Links p triples subject node ∨ Links p more subject node := by
  constructor
  · rintro ⟨blank, stated⟩
    rcases List.mem_append.mp stated with stated | stated
    · exact .inl ⟨blank, stated⟩
    · exact .inr ⟨blank, stated⟩
  · rintro (⟨blank, stated⟩ | ⟨blank, stated⟩)
    · exact ⟨blank, List.mem_append_left _ stated⟩
    · exact ⟨blank, List.mem_append_right _ stated⟩

theorem Unlinked.append (unlinked : Unlinked p triples) (unlinked' : Unlinked p more) :
    Unlinked p (triples ++ more) := by
  intro subject node links
  rcases links_append.mp links with links | links
  · exact unlinked _ _ links
  · exact unlinked' _ _ links

theorem unlinked_of (other : ∀ x ∈ triples, x.predicate = .iri p → x.object.isBlank = false) :
    Unlinked p triples := by
  rintro subject node ⟨blank, stated⟩
  have named := other _ stated rfl
  rw [show node.isBlank = true from blank] at named
  cases named

/-- A statement before others that link nothing is all that may link. -/
theorem links_cons {start object : Term} {q : String} (unlinked : Unlinked p more) :
    Links p (⟨start, .iri q, object⟩ :: more) subject node ↔
      q = p ∧ object.isBlank = true ∧ subject = start ∧ node = object := by
  constructor
  · rintro ⟨blank, stated⟩
    rcases List.mem_cons.mp stated with same | stated
    · cases same
      exact ⟨rfl, blank, rfl, rfl⟩
    · exact absurd ⟨blank, stated⟩ (unlinked subject node)
  · rintro ⟨rfl, blank, rfl, rfl⟩
    exact ⟨blank, List.mem_cons_self⟩

theorem not_links_nil {x a : Term} : ¬ Links p [] x a := fun links => by cases links.stated

end Links

namespace PredicateObjectMap.Reuses
variable {p c : String} {pom : PredicateObjectMap} (reuses : pom.Reuses p c)
include reuses

theorem unlinked_value (wrapped : pom.subEntityClass.isSome = true) (entity object : Term) :
    Unlinked p [⟨entity, .iri pom.valuePredicate, object⟩] := by
  refine unlinked_of fun x hx same => ?_
  obtain rfl := List.mem_singleton.mp hx
  exact absurd (Term.iri.inj same) (reuses.value wrapped)

/-- What stands behind the link to a fresh node is of other predicates. -/
theorem unlinked_behind (wrapped : pom.subEntityClass.isSome = true) (entity object : Term)
    (name : String) :
    Unlinked p ([⟨entity, .iri Vocabulary.rdfType, .iri name⟩] ++
      (pom.additionalTriples.map (fun x => ⟨entity, .iri x.1, x.2⟩) ++
        [⟨entity, .iri pom.valuePredicate, object⟩])) := by
  refine .append ?_ (.append ?_ (reuses.unlinked_value wrapped entity object))
  · refine unlinked_of fun x hx _ => ?_
    obtain rfl := List.mem_singleton.mp hx
    rfl
  · refine unlinked_of fun x hx same => ?_
    obtain ⟨pair, hp, rfl⟩ := List.mem_map.mp hx
    exact absurd (Term.iri.inj same) (reuses.additional wrapped pair hp)

end PredicateObjectMap.Reuses

namespace Engine
open BlankNodes
variable {σ α : Type} {p c : String}

theorem unlinked_typeTriples (m : TriplesMap) (subject : Term) :
    Unlinked p (typeTriples m subject) := by
  refine unlinked_of fun x hx _ => ?_
  obtain ⟨_, _, rfl⟩ := List.mem_map.mp hx
  rfl

/-- Attaching an object adds no link of the predicate, or one to a fresh node of the class where no
node was found that could be reused. -/
theorem attach_gains {subject : Term} {pom : PredicateObjectMap} {object : Term}
    {buffer buffer' : List Triple} {s t : RunState σ} (reuses : pom.Reuses p c)
    (done : outcome (attach subject pom object buffer) s = (.ok buffer', t)) :
    ∃ added, buffer' = buffer ++ added ∧
      (Unlinked p added ∨
        pom.predicate = p ∧
        findReusable? s.graph buffer subject (.iri p) (.iri c) = none ∧
        t.blanks = s.blanks.fresh.2 ∧ Typed c added s.blanks.fresh.1 ∧
        ∀ x a, Links p added x a ↔ x = subject ∧ a = s.blanks.fresh.1) := by
  unfold attach at done
  cases sub : pom.subEntityClass with
  | none =>
    simp only [sub] at done
    cases done
    refine ⟨_, rfl, .inl (unlinked_of fun x hx same => ?_)⟩
    obtain rfl := List.mem_singleton.mp hx
    have own := (reuses.own (Term.iri.inj same)).2.1
    rw [sub] at own
    cases own
  | some name =>
    have wrapped : pom.subEntityClass.isSome = true := by rw [sub]; rfl
    simp only [sub] at done
    obtain ⟨state, u, got, done⟩ := exists_of_outcome_bind done
    cases got
    split at done
    next entity found =>
      cases done
      exact ⟨_, rfl, .inl (reuses.unlinked_value wrapped entity object)⟩
    next missing =>
      obtain ⟨entity, u, fresh, done⟩ := exists_of_outcome_bind done
      cases fresh
      cases done
      have behind := reuses.unlinked_behind wrapped s.blanks.fresh.1 object name
      refine ⟨⟨subject, .iri pom.predicate, s.blanks.fresh.1⟩ ::
        ([⟨s.blanks.fresh.1, .iri Vocabulary.rdfType, .iri name⟩] ++
          (pom.additionalTriples.map (fun x => ⟨s.blanks.fresh.1, .iri x.1, x.2⟩) ++
            [⟨s.blanks.fresh.1, .iri pom.valuePredicate, object⟩])), by simp [fresh], ?_⟩
      by_cases own : pom.predicate = p
      · obtain ⟨-, same, reuse⟩ := reuses.own own
        obtain rfl := Option.some.inj (sub.symm.trans same)
        refine .inr ⟨own, ?_, rfl, by simp [Typed], fun x a => ?_⟩
        · rw [← own]
          simpa [reuse] using missing
        · rw [links_cons behind]
          exact ⟨fun ⟨_, _, linked⟩ => linked, fun linked => ⟨own, rfl, linked⟩⟩
      · exact .inl fun x a links => own ((links_cons behind).mp links).1

/-- The nodes that a graph links by the predicate are of the class, and the run minted them. -/
structure Tracked (p c : String) (s : RunState σ) : Prop where
  typed : ∀ x a, Links p s.graph.triples x a → Typed c s.graph.triples a
  minted : ∀ x a, Links p s.graph.triples x a →
    ∃ i < s.blanks.next, a = .blank (label s.blanks.start i)

/-- From one state to another statements were added, which link by the predicate nodes of the class
that were minted on the way. -/
structure Gains (p c : String) (s t : RunState σ) (added : List Triple) : Prop where
  start : t.blanks.start = s.blanks.start
  next : s.blanks.next ≤ t.blanks.next
  graph : t.graph.triples = s.graph.triples ++ added
  typed : ∀ x a, Links p added x a → Typed c added a
  minted : ∀ x a, Links p added x a →
    ∃ i, s.blanks.next ≤ i ∧ i < t.blanks.next ∧ a = .blank (label s.blanks.start i)

section Gains
variable {s t u : RunState σ} {added more : List Triple}

theorem Gains.nothing (start : t.blanks.start = s.blanks.start)
    (next : s.blanks.next ≤ t.blanks.next) (graph : t.graph.triples = s.graph.triples) :
    Gains p c s t [] :=
  ⟨start, next, by simp [graph], fun _ _ links => absurd links not_links_nil,
    fun _ _ links => absurd links not_links_nil⟩

theorem Gains.trans (gains : Gains p c s t added) (gains' : Gains p c t u more) :
    Gains p c s u (added ++ more) where
  start := gains'.start.trans gains.start
  next := gains.next.trans gains'.next
  graph := by rw [gains'.graph, gains.graph, List.append_assoc]
  typed x a links := by
    rcases links_append.mp links with links | links
    · exact List.mem_append_left _ (gains.typed x a links)
    · exact List.mem_append_right _ (gains'.typed x a links)
  minted x a links := by
    have next := gains.next
    have next' := gains'.next
    rcases links_append.mp links with links | links
    · obtain ⟨i, low, high, rfl⟩ := gains.minted x a links
      exact ⟨i, low, by omega, rfl⟩
    · obtain ⟨i, low, high, rfl⟩ := gains'.minted x a links
      exact ⟨i, by omega, high, by rw [gains.start]⟩

theorem Tracked.gains (tracked : Tracked p c s) (gains : Gains p c s t added) : Tracked p c t where
  typed x a links := by
    rw [gains.graph] at links ⊢
    rcases links_append.mp links with links | links
    · exact List.mem_append_left _ (tracked.typed x a links)
    · exact List.mem_append_right _ (gains.typed x a links)
  minted x a links := by
    have next := gains.next
    rw [gains.start]
    rw [gains.graph] at links
    rcases links_append.mp links with links | links
    · obtain ⟨i, low, rfl⟩ := tracked.minted x a links
      exact ⟨i, by omega, rfl⟩
    · obtain ⟨i, low, high, rfl⟩ := gains.minted x a links
      exact ⟨i, high, rfl⟩

theorem Gains.addedBetween (gains : Gains p c s t added) : addedBetween (s, t) = added := by
  simp [Engine.addedBetween, gains.graph]

theorem tracked_start (config : Config) (store : σ) : Tracked p c (start config store) :=
  ⟨fun _ _ links => absurd links not_links_nil, fun _ _ links => absurd links not_links_nil⟩

end Gains

/-- What is kept of the statements of a graph from step to step. -/
structure Keeps (kept : List Triple → List Triple → Prop) : Prop where
  refl : ∀ triples, kept triples triples
  trans : ∀ {triples more most}, kept triples more → kept more most → kept triples most

/-- Only links to minted nodes of the class are added by the predicate, and something is kept. -/
def linking (p c : String) {kept : List Triple → List Triple → Prop} (keeps : Keeps kept) :
    Bound σ where
  moves s t := Tracked p c s → (∃ added, Gains p c s t added) ∧ kept s.graph.triples t.graph.triples
  fails _ := True
  refl s _ := ⟨⟨[], .nothing rfl (Nat.le_refl _) rfl⟩, keeps.refl _⟩
  trans first second tracked := by
    obtain ⟨⟨added, gains⟩, held⟩ := first tracked
    obtain ⟨⟨more, gains'⟩, held'⟩ := second (tracked.gains gains)
    exact ⟨⟨_, gains.trans gains'⟩, keeps.trans held held'⟩

section Linking
variable {kept : List Triple → List Triple → Prop} (keeps : Keeps kept)

theorem linking_of_same {s t : RunState σ} (start : t.blanks.start = s.blanks.start)
    (next : s.blanks.next ≤ t.blanks.next) (graph : t.graph.triples = s.graph.triples) :
    (linking p c keeps).moves s t :=
  fun _ => ⟨⟨[], .nothing start next graph⟩, by rw [graph]; exact keeps.refl _⟩

theorem allows_linking : Allows (linking p c keeps : Bound σ) where
  draws _ _ := linking_of_same keeps rfl (Nat.le_refl _) rfl
  fresh _ := linking_of_same keeps rfl (Nat.le_succ _) rfl
  forValue s value := by
    unfold BlankNodes.forValue
    split
    next => exact linking_of_same keeps rfl (Nat.le_refl _) rfl
    next => exact linking_of_same keeps rfl (Nat.le_succ _) rfl
  faults _ _ := trivial

theorem asks_linking (store : Option (TripleStore σ)) : Asks (linking p c keeps) store where
  resolve := (allows_linking keeps).resolveNamed
  counted _ _ := linking_of_same keeps rfl (Nat.le_refl _) rfl
  asked _ _ _ _ := linking_of_same keeps rfl (Nat.le_refl _) rfl
  faults _ _ := trivial

theorem keeps_nothing : Keeps fun _ _ => True := ⟨fun _ => trivial, fun _ _ => trivial⟩

/-- A step that leaves the graph as it is only mints nodes. -/
theorem gains_of_quiet {step : Run σ α} (quiet_ : Within quiet step)
    (within : Within (linking p c keeps_nothing) step) {s : RunState σ} (tracked : Tracked p c s) :
    Gains p c s (outcome step s).2 [] := by
  obtain ⟨⟨added, gains⟩, -⟩ := (within s).1 tracked
  exact .nothing gains.start gains.next (by rw [(quiet_ s).1.1])

end Linking

/-- A parent that is run behind a map of the predicate has linked a node to a subject. -/
def LinkedLate (p c : String) (runParent : RunParent σ) (node : Node)
    (before : List PredicateObjectMap) (subject linked : Term) : Prop :=
  ∃ earlier later iri, [earlier, later].Sublist before ∧ earlier.predicate = p ∧
    later.object = .parent iri ∧ ∃ ctx u, Tracked p c u ∧
      ¬ Links p u.graph.triples subject linked ∧
      Links p (outcome (runParent iri node ctx) u).2.graph.triples subject linked

/-- How a row stands in a later state than its first one: behind the predicate-object maps `before`
it has the statements `buffer`. -/
structure Pending (p c : String) (runParent : RunParent σ) (node : Node) (subject : Term)
    (before : List PredicateObjectMap) (s t : RunState σ) (buffer : List Triple) : Prop where
  gains : ∃ added, Gains p c s t added
  owner : ∀ x a, Links p buffer x a → x = subject
  typed : ∀ x a, Links p buffer x a → Typed c buffer a
  minted : ∀ x a, Links p buffer x a →
    ∃ i, s.blanks.next ≤ i ∧ i < t.blanks.next ∧ a = .blank (label s.blanks.start i)
  single : ∀ x a b, Links p buffer x a → Links p buffer x b → a = b
  source : ∀ x a, Links p buffer x a → ∃ pom ∈ before, pom.predicate = p
  first : ∀ x a b, Links p buffer x a → ¬ Links p s.graph.triples x b
  apart : ∀ x a, Links p buffer x a → ¬ Links p t.graph.triples x a
  /-- What else is linked to the subject by now, a parent of a later map has linked. -/
  late : ∀ x a b, Links p buffer x a → Links p t.graph.triples x b →
    LinkedLate p c runParent node before x b

section Pending
variable {config : Config} {runParent : RunParent σ} {node : Node} {ctx : Context} {subject : Term}
  {pom : PredicateObjectMap} {before : List PredicateObjectMap} {s t u : RunState σ}
  {buffer buffer' added : List Triple}

theorem Pending.of_unlinked (gains : ∃ added, Gains p c s t added) (unlinked : Unlinked p buffer) :
    Pending p c runParent node subject before s t buffer where
  gains := gains
  owner x a links := absurd links (unlinked x a)
  typed x a links := absurd links (unlinked x a)
  minted x a links := absurd links (unlinked x a)
  single x a _ links := absurd links (unlinked x a)
  source x a links := absurd links (unlinked x a)
  first x a _ links := absurd links (unlinked x a)
  apart x a links := absurd links (unlinked x a)
  late x a _ links := absurd links (unlinked x a)

/-- The graph gains links to nodes that are minted, and the row statements without links. -/
theorem Pending.moved {moved : List Triple}
    (pending : Pending p c runParent node subject before s t buffer) (gains : Gains p c t u moved)
    (unlinked : Unlinked p added)
    (late : ∀ x a b, Links p buffer x a → ¬ Links p t.graph.triples x b →
      Links p u.graph.triples x b → LinkedLate p c runParent node before x b) :
    Pending p c runParent node subject before s u (buffer ++ added) := by
  have own (x a : Term) (links : Links p (buffer ++ added) x a) : Links p buffer x a :=
    (links_append.mp links).resolve_right (unlinked x a)
  have next := gains.next
  obtain ⟨grown, earlier⟩ := pending.gains
  refine ⟨⟨_, earlier.trans gains⟩, fun x a links => pending.owner x a (own x a links),
    fun x a links => List.mem_append_left _ (pending.typed x a (own x a links)), ?_,
    fun x a b la lb => pending.single x a b (own x a la) (own x b lb),
    fun x a links => pending.source x a (own x a links),
    fun x a b links => pending.first x a b (own x a links), ?_, ?_⟩
  · intro x a links
    obtain ⟨i, low, high, rfl⟩ := pending.minted x a (own x a links)
    exact ⟨i, low, by omega, rfl⟩
  · intro x a links known
    rw [gains.graph] at known
    rcases links_append.mp known with known | new
    · exact pending.apart x a (own x a links) known
    -- A node of the row was minted before all of those that are new in the graph.
    · obtain ⟨i, -, high, rfl⟩ := pending.minted x _ (own x a links)
      obtain ⟨j, low, -, same⟩ := gains.minted x _ new
      rw [earlier.start] at same
      have := label_injective (Term.blank.inj same)
      omega
  · intro x a b links known
    by_cases old : Links p t.graph.triples x b
    · exact pending.late x a b (own x a links) old
    · exact late x a b (own x a links) old known

theorem Pending.same (pending : Pending p c runParent node subject before s t buffer)
    (quiet : Gains p c t u []) (unlinked : Unlinked p added) :
    Pending p c runParent node subject before s u (buffer ++ added) := by
  refine pending.moved quiet unlinked fun x a b _ new known => absurd ?_ new
  rw [quiet.graph, List.append_nil] at known
  exact known

/-- The next predicate-object map has its turn. -/
theorem Pending.behind (pending : Pending p c runParent node subject before s t buffer)
    (pom : PredicateObjectMap) :
    Pending p c runParent node subject (before ++ [pom]) s t buffer := by
  refine { pending with source := fun x a links => ?_, late := fun x a b links linked => ?_ }
  · obtain ⟨source, hm, same⟩ := pending.source x a links
    exact ⟨source, List.mem_append_left _ hm, same⟩
  · obtain ⟨earlier, later, iri, order, rest⟩ := pending.late x a b links linked
    exact ⟨earlier, later, iri, order.trans (List.sublist_append_left _ _), rest⟩

/-- Where no node is found that could be reused, the subject has none. -/
theorem not_links_of_none (tracked : Tracked p c t)
    (typed : ∀ x a, Links p buffer x a → Typed c buffer a)
    (none : findReusable? t.graph buffer subject (.iri p) (.iri c) = none) (a : Term) :
    ¬ Links p buffer subject a ∧ ¬ Links p t.graph.triples subject a := by
  have other := List.find?_eq_none.mp none
  constructor
  · intro links
    refine other a ?_ ?_
    · exact List.mem_append_left _
        (List.mem_map.mpr ⟨_, List.mem_filter.mpr ⟨links.stated, by simp⟩, rfl⟩)
    · have type := typed subject a links
      unfold Typed at type
      simp [links.blank, type]
  · intro links
    refine other a ?_ ?_
    · exact List.mem_append_right _
        (List.mem_map.mpr ⟨_, List.mem_filter.mpr ⟨links.stated, by simp⟩, rfl⟩)
    · have type := tracked.typed subject a links
      unfold Typed at type
      simp [links.blank, Graph.contains, type]

theorem Pending.attach (pending : Pending p c runParent node subject before s t buffer)
    (tracked : Tracked p c s) (reuses : pom.Reuses p c) (hm : pom ∈ before) {object : Term}
    (done : outcome (attach subject pom object buffer) t = (.ok buffer', u)) :
    Pending p c runParent node subject before s u buffer' := by
  obtain ⟨grown, gains⟩ := pending.gains
  have tracked' := tracked.gains gains
  have moved := gains_of_quiet (allows_quiet.attach subject pom object buffer)
    ((allows_linking keeps_nothing).attach subject pom object buffer) tracked'
  rw [done] at moved
  dsimp only at moved
  obtain ⟨added, rfl, unlinked | ⟨own, none, fresh, type, links⟩⟩ := attach_gains reuses done
  · exact pending.same moved unlinked
  · have clear := not_links_of_none tracked' pending.typed none
    have graph : u.graph.triples = t.graph.triples := by simpa using moved.graph
    have next := gains.next
    have whole (x a : Term) (linked : Links p (buffer ++ added) x a) :
        x = subject ∧ a = t.blanks.fresh.1 := by
      rcases links_append.mp linked with linked | linked
      · obtain rfl := pending.owner x a linked
        exact absurd linked (clear a).1
      · exact (links x a).mp linked
    refine ⟨⟨_, gains.trans moved⟩, fun x a linked => (whole x a linked).1, ?_, ?_, ?_, ?_, ?_, ?_,
      ?_⟩
    · rintro x a linked
      obtain ⟨-, rfl⟩ := whole x a linked
      exact List.mem_append_right _ type
    · rintro x a linked
      obtain ⟨-, rfl⟩ := whole x a linked
      exact ⟨t.blanks.next, next, by rw [fresh]; exact Nat.lt_succ_self _,
        by rw [← gains.start]; rfl⟩
    · intro x a b la lb
      rw [(whole x a la).2, (whole x b lb).2]
    · exact fun _ _ _ => ⟨pom, hm, own⟩
    · intro x a b linked known
      obtain ⟨rfl, -⟩ := whole x a linked
      refine (clear b).2 ?_
      rw [gains.graph]
      exact links_append.mpr (.inl known)
    · intro x a linked
      obtain ⟨rfl, -⟩ := whole x a linked
      rw [graph]
      exact (clear a).2
    · intro x a b linked known
      obtain ⟨rfl, -⟩ := whole x a linked
      rw [graph] at known
      exact absurd known (clear b).2

theorem Pending.attachAll (pending : Pending p c runParent node subject before s t buffer)
    (tracked : Tracked p c s) (reuses : pom.Reuses p c) (hm : pom ∈ before) {objects : List Term}
    (done : outcome (attachAll subject pom objects buffer) t = (.ok buffer', u)) :
    Pending p c runParent node subject before s u buffer' := by
  induction objects generalizing t buffer with
  | nil =>
    cases done
    exact pending
  | cons object rest ih =>
    obtain ⟨next, t', first, later⟩ := exists_of_outcome_bind done
    exact ih (pending.attach tracked reuses hm first) later

theorem Pending.ownTriples (pending : Pending p c runParent node subject before s t buffer)
    (tracked : Tracked p c s) (reuses : pom.Reuses p c) (hm : pom ∈ before)
    (done : outcome (ownTriples config subject node ctx pom buffer) t = (.ok (some buffer'), u)) :
    Pending p c runParent node subject before s u buffer' := by
  obtain ⟨grown, gains⟩ := pending.gains
  obtain ⟨objects?, t', objects, rest⟩ := exists_of_outcome_bind done
  have moved := gains_of_quiet (allows_quiet.objectTerms config pom node ctx)
    ((allows_linking keeps_nothing).objectTerms config pom node ctx) (tracked.gains gains)
  rw [objects] at moved
  cases objects? with
  | none => cases rest
  | some objects =>
    obtain ⟨buffer'', u', attached, rest⟩ := exists_of_outcome_bind rest
    cases rest
    have pending' : Pending p c runParent node subject before s t' (buffer ++ []) :=
      pending.same moved fun _ _ => not_links_nil
    rw [List.append_nil] at pending'
    exact pending'.attachAll tracked reuses hm attached

/-- A parent may add links to the subject, but to nodes that it mints. -/
theorem Pending.parent (pending : Pending p c runParent node subject before s t buffer)
    (tracked : Tracked p c s) (other : pom.predicate ≠ p) {iri : String}
    (object : pom.object = .parent iri) {moved : List Triple} {ctx : Context}
    (ran : (outcome (runParent iri node ctx) t).2 = u) (gains : Gains p c t u moved)
    (parents : List Term) :
    Pending p c runParent node subject (before ++ [pom]) s u
      (buffer ++ parents.map fun parent => ⟨subject, .iri pom.predicate, parent⟩) := by
  obtain ⟨grown, earlier⟩ := pending.gains
  refine (pending.behind pom).moved gains (unlinked_of fun x hx same => ?_) ?_
  · obtain ⟨_, _, rfl⟩ := List.mem_map.mp hx
    exact absurd (Term.iri.inj same) other
  · intro x a b links new known
    obtain ⟨source, hm, same⟩ := pending.source x a links
    refine ⟨source, pom, iri, ?_, same, object, ctx, t, tracked.gains earlier, new, ran ▸ known⟩
    exact (List.singleton_sublist.mpr hm).append (List.Sublist.refl [pom])

theorem Pending.rowTriples (parents : ∀ iri ctx,
      Within (linking p c keeps_nothing) (runParent iri node ctx))
    (tracked : Tracked p c s) {poms : List PredicateObjectMap}
    (reuses : ∀ pom ∈ poms, pom.Reuses p c)
    (pending : Pending p c runParent node subject before s t buffer)
    (done : outcome (rowTriples config runParent subject node ctx poms buffer) t =
      (.ok (some buffer'), u)) :
    Pending p c runParent node subject (before ++ poms) s u buffer' := by
  induction poms generalizing before t buffer with
  | nil =>
    cases done
    rw [List.append_nil]
    exact pending
  | cons pom rest ih =>
    rw [List.forall_mem_cons] at reuses
    obtain ⟨next?, t', linked, later⟩ := exists_of_outcome_bind done
    cases next? with
    | none => cases later
    | some next =>
      rw [show before ++ pom :: rest = before ++ [pom] ++ rest by simp]
      refine ih reuses.2 ?_ later
      by_cases parent : ∃ iri, pom.object = .parent iri
      · obtain ⟨iri, object⟩ := parent
        have other : pom.predicate ≠ p := fun own => by
          have isParent := (reuses.1.own own).1
          simp [PredicateObjectMap.isParent, object] at isParent
        simp only [linkTriples, object] at linked
        obtain ⟨found, t'', ran, linked⟩ := exists_of_outcome_bind linked
        cases linked
        obtain ⟨grown, gains⟩ := pending.gains
        obtain ⟨⟨moved, gains'⟩, -⟩ := (parents iri (linkContext ctx subject pom.predicate) t).1
          (tracked.gains gains)
        rw [ran] at gains'
        exact pending.parent tracked other object (congrArg Prod.snd ran) gains' found
      · have own : linkTriples config runParent subject node ctx pom buffer =
            Engine.ownTriples config subject node ctx pom buffer := by
          unfold linkTriples
          split
          next iri object => exact absurd ⟨iri, object⟩ parent
          next => rfl
        rw [own] at linked
        exact (pending.behind pom).ownTriples tracked reuses.1 (by simp) linked

theorem pending_of_rowContent {m : TriplesMap} (parents : ∀ iri ctx,
      Within (linking p c keeps_nothing) (runParent iri node ctx))
    (tracked : Tracked p c s) (reuses : ∀ pom ∈ m.predicateObjectMaps, pom.Reuses p c)
    (done : outcome (rowContent config runParent m ctx node) s =
      (.ok (some (subject, buffer)), t)) :
    Pending p c runParent node subject m.predicateObjectMaps s t buffer := by
  obtain ⟨subject?, s', minted, rest⟩ := exists_of_outcome_bind done
  have moved := gains_of_quiet (allows_quiet.mintSubject config m node ctx)
    ((allows_linking keeps_nothing).mintSubject config m node ctx) tracked
  rw [minted] at moved
  cases subject? with
  | none => cases rest
  | some subject' =>
    obtain ⟨buffer?, t', stated, rest⟩ := exists_of_outcome_bind rest
    cases buffer? with
    | none => cases rest
    | some buffer' =>
      cases rest
      have first : Pending p c runParent node subject [] s s' [] :=
        .of_unlinked ⟨_, moved⟩ fun _ _ => not_links_nil
      exact first.rowTriples parents tracked reuses stated

/-- What a row adds to the graph links minted nodes of the class only. -/
theorem Pending.committed (pending : Pending p c runParent node subject before s t buffer)
    (m : TriplesMap) :
    ∃ added, Gains p c s (outcome (commit (typeTriples m subject ++ buffer)) t).2 added := by
  obtain ⟨added, gains⟩ := pending.gains
  have own (x a : Term) (links : Links p (typeTriples m subject ++ buffer) x a) :
      Links p buffer x a :=
    (links_append.mp links).resolve_left (unlinked_typeTriples m subject x a)
  have next := gains.next
  refine ⟨added ++ (typeTriples m subject ++ buffer), gains.start, next, ?_, ?_, ?_⟩
  · rw [← List.append_assoc, ← gains.graph]
    rfl
  · intro x a links
    rcases links_append.mp links with links | links
    · exact List.mem_append_left _ (gains.typed x a links)
    · exact List.mem_append_right _
        (List.mem_append_right _ (pending.typed x a (own x a links)))
  · intro x a links
    rcases links_append.mp links with links | links
    · exact gains.minted x a links
    · exact pending.minted x a (own x a links)

/-- What is linked to the subject of the row beside a node of the row was there before, or a parent
has linked it. -/
theorem Pending.not_beside (pending : Pending p c runParent node subject before s t buffer)
    (gains : Gains p c s t added)
    (clear : ∀ a b, Links p buffer subject a → ¬ Links p added subject b) {x a b : Term}
    (own : Links p buffer x a) : ¬ Links p t.graph.triples x b := by
  intro known
  obtain rfl := pending.owner x a own
  rw [gains.graph] at known
  rcases links_append.mp known with known | known
  · exact pending.first x a b own known
  · exact clear a b own known

/-- A row leaves single nodes exactly if its parents did, and linked none to a subject to which the
row has linked one of its own. -/
theorem Pending.singleNodes_iff (pending : Pending p c runParent node subject before s t buffer)
    (tracked : Tracked p c s) (m : TriplesMap) :
    SingleNodes p c
        (outcome (commit (typeTriples m subject ++ buffer)) t).2.graph.triples ↔
      SingleNodes p c t.graph.triples ∧
        ∀ a b, Links p buffer subject a → ¬ Links p (addedBetween (s, t)) subject b := by
  obtain ⟨added, gains⟩ := pending.gains
  have tracked' := tracked.gains gains
  have whole : (outcome (commit (typeTriples m subject ++ buffer)) t).2.graph.triples =
      t.graph.triples ++ (typeTriples m subject ++ buffer) := rfl
  rw [whole, gains.addedBetween]
  have cases_ {x a : Term}
      (links : Links p (t.graph.triples ++ (typeTriples m subject ++ buffer)) x a) :
      Links p t.graph.triples x a ∨ Links p buffer x a :=
    (links_append.mp links).imp_right fun links =>
      (links_append.mp links).resolve_left (unlinked_typeTriples m subject x a)
  have type {a : Term} (typed : Typed c t.graph.triples a) :
      Typed c (t.graph.triples ++ (typeTriples m subject ++ buffer)) a :=
    List.mem_append_left _ typed
  constructor
  · intro single
    refine ⟨fun x a b la ta lb tb => ?_, fun a b la lb => ?_⟩
    · exact single x a b (links_append.mpr (.inl la)) (type ta) (links_append.mpr (.inl lb))
        (type tb)
    · have known : Links p t.graph.triples subject b := by
        rw [gains.graph]
        exact links_append.mpr (.inr lb)
      obtain rfl := single subject a b
        (links_append.mpr (.inr (links_append.mpr (.inr la))))
        (List.mem_append_right _ (List.mem_append_right _ (pending.typed subject a la)))
        (links_append.mpr (.inl known)) (type (tracked'.typed subject b known))
      exact pending.apart subject a la known
  · rintro ⟨single, clear⟩ x a b la - lb -
    rcases cases_ la with la | la
    · rcases cases_ lb with lb | lb
      · exact single x a b la (tracked'.typed x a la) lb (tracked'.typed x b lb)
      · exact absurd la (pending.not_beside gains clear lb)
    · rcases cases_ lb with lb | lb
      · exact absurd lb (pending.not_beside gains clear la)
      · exact pending.single x a b la lb

end Pending

end Engine
end CatalogGraph
