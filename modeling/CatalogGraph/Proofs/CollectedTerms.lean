import CatalogGraph.Graph.Collector
import CatalogGraph.Text.Numeral
import Mathlib.Data.List.Basic
import Mathlib.Data.List.Induction

/-!
Collected terms: a number that a collector gives stands for one term to the end. Nodes without a
label are labelled by their number, so that each of them stands apart exactly as long as nobody
passes such a label.
-/
namespace CatalogGraph.Collector

/-- What is asked of a collector. -/
inductive Call where
  | base (name : String)
  | declare (name namespaceIri : String)
  | iri (name : String)
  | blank (label : Option String)
  | literal (value datatype : String) (language : Option String)
  | emit (subject predicate object : Nat)
deriving DecidableEq, Repr

namespace Call

/-- The number that a call gives if it is for a term, and the collector after it. -/
def run (c : Collector) : Call → Option (Option Nat × Collector)
  | .base name => some (none, { c with graph := c.graph.setBase name })
  | .declare name namespaceIri =>
    some (none, { c with graph := c.graph.addPrefix name namespaceIri })
  | .iri name => some (some (c.newIri name).1, (c.newIri name).2)
  | .blank label => some (some (c.newBlank label).1, (c.newBlank label).2)
  | .literal value datatype language =>
    some (some (c.newLiteral value datatype language).1, (c.newLiteral value datatype language).2)
  | .emit s p o => (c.emit s p o).map fun c => (none, c)

/-- The term that a call is for, where so many nodes without a label were created before. -/
def term? (unlabelled : Nat) : Call → Option Term
  | .iri name => some (.iri name)
  | .blank label => some (.blank (label.getD ("genid" ++ toString (unlabelled + 1))))
  | .literal value _ (some tag) => some (.tagged value tag)
  | .literal value datatype none => some (.typed value datatype)
  | _ => none

/-- The numbers that a call is about. -/
def uses : Call → List Nat
  | .emit s p o => [s, p, o]
  | _ => []

/-- What a call states, given the terms of numbers. -/
def statement? (term : Nat → Term) : Call → Option Triple
  | .emit s p o => some ⟨term s, term p, term o⟩
  | _ => none

theorem statement?_congr {term term' : Nat → Term} {call : Call}
    (same : ∀ id ∈ call.uses, term id = term' id) :
    call.statement? term = call.statement? term' := by
  cases call with
  | emit s p o =>
    rw [uses, List.forall_mem_cons, List.forall_mem_cons, List.forall_mem_singleton] at same
    obtain ⟨subject, predicate, object⟩ := same
    rw [statement?, statement?, subject, predicate, object]
  | _ => rfl

end Call

/-- Calls in order, each with the number that it gave. -/
abbrev Log := List (Call × Option Nat)

/-- How many nodes without a label were asked for. -/
def Log.unlabelled (log : Log) : Nat := log.countP (·.1 = .blank none)

/-- The calls of a session so far, and the collector after them. -/
inductive Session : Log → Collector → Prop
  | start : Session [] {}
  | call {log : Log} {c c' : Collector} {call : Call} {id : Option Nat} (session : Session log c)
      (ran : call.run c = some (id, c')) : Session (log ++ [(call, id)]) c'

/-- The term of a number. -/
def term (c : Collector) (id : Nat) : Term := c.terms[id]?.getD default

/-- What a collector has of the calls of a session: the numbers that they gave, with the terms that
they were for, and what they stated. -/
structure Keeps (c : Collector) (log : Log) : Prop where
  unlabelled : c.unlabelled = log.unlabelled
  created : ∀ (n : Nat) (call : Call) (id : Option Nat), log[n]? = some (call, id) →
    id.map c.term = call.term? (Log.unlabelled (log.take n))
  known : ∀ id, id < c.terms.size ↔ ∃ call, (call, some id) ∈ log
  used : ∀ entry ∈ log, ∀ id ∈ entry.1.uses, id < c.terms.size
  labelled : ∀ label id, c.labels.get? label = some id →
    id < c.terms.size ∧ c.term id = .blank label
  stated : c.graph.triples = log.filterMap fun entry => entry.1.statement? c.term

section Steps
variable {c c' : Collector} {log : Log} {call : Call}

theorem Log.unlabelled_concat (log : Log) (call : Call) (id : Option Nat) :
    Log.unlabelled (log ++ [(call, id)]) =
      log.unlabelled + if call = .blank none then 1 else 0 := by
  simp [Log.unlabelled, List.countP_append, List.countP_singleton]

/-- What holds of each call with the calls before it holds so of one more call at the end. -/
theorem Log.forall_concat (holds : Log → Call → Option Nat → Prop) {id : Option Nat}
    (past : ∀ (n : Nat) call id, log[n]? = some (call, id) → holds (log.take n) call id)
    (last : holds log call id) {n : Nat} {call' : Call} {id' : Option Nat}
    (found : (log ++ [(call, id)])[n]? = some (call', id')) :
    holds ((log ++ [(call, id)]).take n) call' id' := by
  rcases Nat.lt_trichotomy n log.length with before | rfl | behind
  · rw [List.getElem?_append_left before] at found
    rw [List.take_append_of_le_length (Nat.le_of_lt before)]
    exact past n call' id' found
  · rw [List.getElem?_concat_length] at found
    obtain ⟨rfl, rfl⟩ := Prod.mk.inj (Option.some.inj found)
    rwa [List.take_left]
  · rw [List.getElem?_eq_none (by rw [List.length_append]; exact behind)] at found
    cases found

/-- Terms that were there are not changed by further ones. -/
theorem Keeps.concat {id : Option Nat} (keeps : c.Keeps log)
    (kept : ∀ i < c.terms.size, c'.term i = c.term i) (size : c.terms.size ≤ c'.terms.size)
    (unlabelled : c'.unlabelled = c.unlabelled + if call = .blank none then 1 else 0)
    (created : id.map c'.term = call.term? c.unlabelled)
    (known : ∀ i, i < c'.terms.size ↔ i < c.terms.size ∨ id = some i)
    (used : ∀ i ∈ call.uses, i < c.terms.size)
    (labelled : ∀ label i, c'.labels.get? label = some i →
      c.labels.get? label = some i ∨ i < c'.terms.size ∧ c'.term i = .blank label)
    (stated : c'.graph.triples = c.graph.triples ++ (call.statement? c.term).toList) :
    c'.Keeps (log ++ [(call, id)]) where
  unlabelled := by rw [unlabelled, keeps.unlabelled, Log.unlabelled_concat]
  created := by
    let holds (before : Log) (call : Call) (id : Option Nat) : Prop :=
      id.map c'.term = call.term? before.unlabelled
    refine fun _ _ _ => Log.forall_concat holds (fun n call id found => ?_) ?_
    · refine Eq.trans (Option.map_congr fun i mem => kept i ?_) (keeps.created n call id found)
      exact (keeps.known i).mpr ⟨call, List.mem_of_getElem? (found.trans (by rw [mem]))⟩
    · change id.map c'.term = call.term? log.unlabelled
      rw [created, keeps.unlabelled]
  known i := by
    rw [known, keeps.known]
    simp [List.mem_append, exists_or, eq_comm]
  used entry mem i use := by
    rcases List.mem_append.mp mem with before | last
    · exact Nat.lt_of_lt_of_le (keeps.used entry before i use) size
    · rw [List.mem_singleton.mp last] at use
      exact Nat.lt_of_lt_of_le (used i use) size
  labelled label i found := by
    rcases labelled label i found with before | new
    · obtain ⟨bound, node⟩ := keeps.labelled label i before
      exact ⟨Nat.lt_of_lt_of_le bound size, (kept i bound).trans node⟩
    · exact new
  stated := by
    rw [stated, keeps.stated, List.filterMap_append]
    congr 1
    · refine List.filterMap_congr fun entry mem => Call.statement?_congr fun i use => ?_
      exact (kept i (keeps.used entry mem i use)).symm
    · rw [← Call.statement?_congr fun i use => kept i (used i use), List.filterMap_cons]
      cases call.statement? c'.term <;> rfl

/-- A call that is for no term and states nothing. -/
theorem Keeps.quiet (keeps : c.Keeps log) (none : call.term? c.unlabelled = none)
    (uses : call.uses = []) (terms : c'.terms = c.terms)
    (unlabelled : c'.unlabelled = c.unlabelled) (labels : c'.labels = c.labels)
    (stated : c'.graph.triples = c.graph.triples ++ (call.statement? c.term).toList) :
    c'.Keeps (log ++ [(call, Option.none)]) := by
  have other : call ≠ .blank Option.none := by
    rintro rfl
    cases none
  have term : c'.term = c.term := by unfold Collector.term; rw [terms]
  have size : c.terms.size ≤ c'.terms.size := Nat.le_of_eq (by rw [terms])
  refine keeps.concat (fun _ _ => by rw [term]) size (by simp [unlabelled, other])
    none.symm (fun i => by rw [terms]; simp) (by simp [uses]) ?_ stated
  exact fun label i found => .inl (labels ▸ found)

theorem term_of_push {t : Term} (terms : c'.terms = c.terms.push t) (i : Nat) :
    c'.term i = if i = c.terms.size then t else c.term i := by
  unfold term
  rw [terms, Array.getElem?_push]
  split <;> rfl

/-- A call for a term that is entered. -/
theorem Keeps.newTerm (keeps : c.Keeps log) {t : Term} (asks : call.term? c.unlabelled = some t)
    (terms : c'.terms = c.terms.push t)
    (unlabelled : c'.unlabelled = c.unlabelled + if call = .blank none then 1 else 0)
    (graph : c'.graph = c.graph) (labelled : ∀ label i, c'.labels.get? label = some i →
      c.labels.get? label = some i ∨ i = c.terms.size ∧ t = .blank label) :
    c'.Keeps (log ++ [(call, some c.terms.size)]) := by
  have uses : call.uses = [] ∧ call.statement? c.term = none := by
    cases call with
    | emit s p o => cases asks
    | _ => exact ⟨rfl, rfl⟩
  have size : c'.terms.size = c.terms.size + 1 := by rw [terms, Array.size_push]
  have last : c'.term c.terms.size = t := by rw [term_of_push terms, if_pos rfl]
  have kept : ∀ i < c.terms.size, c'.term i = c.term i := fun i bound => by
    rw [term_of_push terms, if_neg (Nat.ne_of_lt bound)]
  refine keeps.concat kept (by omega) unlabelled (by rw [asks, Option.map_some, last])
    (fun i => ?_) (by rw [uses.1]; exact nofun) (fun label i found => ?_) ?_
  · rw [size, Option.some.injEq]
    omega
  · rcases labelled label i found with before | ⟨rfl, node⟩
    · exact .inl before
    · exact .inr ⟨by omega, last.trans node⟩
  · rw [graph, uses.2]
    simp

/-- A call for the node of a label that was passed before. -/
theorem Keeps.again (keeps : c.Keeps log) {label : String} {id : Nat}
    (found : c.labels.get? label = some id) :
    c.Keeps (log ++ [(.blank (some label), some id)]) := by
  obtain ⟨bound, node⟩ := keeps.labelled label id found
  refine keeps.concat (fun _ _ => rfl) (Nat.le_refl _) (by simp) ?_ (fun i => ?_) nofun
    (fun _ _ => .inl) (List.append_nil _).symm
  · rw [Option.map_some, node]
    rfl
  · rw [Option.some.injEq]
    omega

/-- Statements are made of terms that are there. -/
theorem emit_eq_some_iff {s p o : Nat} : c.emit s p o = some c' ↔
    (∀ i ∈ [s, p, o], i < c.terms.size) ∧
      c' = { c with graph := c.graph.add ⟨c.term s, c.term p, c.term o⟩ } := by
  have at? (i : Nat) (t : Term) : c.terms[i]? = some t ↔ i < c.terms.size ∧ c.term i = t := by
    unfold term
    rcases Nat.lt_or_ge i c.terms.size with bound | out
    · simp [bound]
    · simp [Nat.not_lt.mpr out]
  simp only [emit, Option.bind_eq_bind, Option.bind_eq_some_iff, at?, List.forall_mem_cons]
  grind

/-- A call goes through as long as it is about numbers of terms only. -/
theorem isSome_run_iff : (call.run c).isSome ↔ ∀ i ∈ call.uses, i < c.terms.size := by
  cases call with
  | emit s p o =>
    rw [Call.run, Option.isSome_map, Option.isSome_iff_exists]
    simp only [emit_eq_some_iff, exists_and_left, exists_eq, and_true]
    rfl
  | _ => simp [Call.run, Call.uses]

theorem Keeps.run (keeps : c.Keeps log) {id : Option Nat} (ran : call.run c = some (id, c')) :
    c'.Keeps (log ++ [(call, id)]) := by
  cases call with
  | base name =>
    cases ran
    exact keeps.quiet rfl rfl rfl rfl rfl (List.append_nil _).symm
  | declare name namespaceIri =>
    cases ran
    exact keeps.quiet rfl rfl rfl rfl rfl (List.append_nil _).symm
  | iri name =>
    cases ran
    exact keeps.newTerm rfl rfl rfl rfl fun _ _ => .inl
  | blank label =>
    cases label with
    | none =>
      cases ran
      exact keeps.newTerm rfl rfl rfl rfl fun _ _ => .inl
    | some label =>
      unfold Call.run newBlank at ran
      dsimp only at ran
      split at ran
      next id found =>
        cases ran
        exact keeps.again found
      next =>
        cases ran
        refine keeps.newTerm rfl rfl rfl rfl fun other i found => ?_
        rw [Entries.get?_insert] at found
        split at found
        next same =>
          cases found
          exact .inr ⟨rfl, by rw [same]; rfl⟩
        next => exact .inl found
  | literal value datatype language =>
    cases language <;> cases ran <;> exact keeps.newTerm rfl rfl rfl rfl fun _ _ => .inl
  | emit s p o =>
    obtain ⟨next, emitted, same⟩ := Option.map_eq_some_iff.mp ran
    cases same
    obtain ⟨used, rfl⟩ := emit_eq_some_iff.mp emitted
    exact keeps.concat (fun _ _ => rfl) (Nat.le_refl _) (by simp) rfl (by simp) used
      (fun _ _ => .inl) rfl

theorem keeps_of_session (session : Session log c) : c.Keeps log := by
  induction session with
  | start => exact ⟨rfl, by simp, by simp, by simp, by simp [Entries.get?], rfl⟩
  | call _ ran ih => exact ih.run ran

end Steps

section Nodes
variable {c : Collector} {log : Log} {n m : Nat} {id : Option Nat}

/-- The nodes of two calls are one exactly if both passed the same label. -/
def FollowLabels (term : Nat → Term) (first second : Call × Option Nat) : Prop :=
  ∀ a i b j, first = (.blank a, some i) → second = (.blank b, some j) →
    (term i = term j ↔ ∃ label, a = some label ∧ b = some label)

theorem Log.unlabelled_mono {log' : Log} (sub : log.Sublist log') :
    log.unlabelled ≤ log'.unlabelled :=
  sub.countP_le

/-- A node without a label is counted behind its call. -/
theorem Log.unlabelled_take_succ (found : log[n]? = some (.blank none, id)) :
    Log.unlabelled (log.take (n + 1)) = Log.unlabelled (log.take n) + 1 := by
  rw [List.take_add_one, found, Option.toList_some, Log.unlabelled_concat, if_pos rfl]

theorem Log.unlabelled_take_lt (found : log[n]? = some (.blank none, id)) (before : n < m) :
    Log.unlabelled (log.take n) < Log.unlabelled (log.take m) := by
  have counted := Log.unlabelled_mono (List.take_sublist_take_left (l := log) before)
  rw [Log.unlabelled_take_succ found] at counted
  exact counted

theorem Log.unlabelled_take_le (found : log[n]? = some (.blank none, id)) :
    Log.unlabelled (log.take n) + 1 ≤ log.unlabelled := by
  rw [← Log.unlabelled_take_succ found]
  exact Log.unlabelled_mono (List.take_sublist _ _)

/-- The nodes without a label are numbered from one on. -/
theorem Log.exists_unlabelled {k : Nat} (positive : 0 < k) (bound : k ≤ log.unlabelled) :
    ∃ n id, log[n]? = some (.blank none, id) ∧ Log.unlabelled (log.take n) + 1 = k := by
  induction log using List.reverseRecOn with
  | nil => exact absurd bound (Nat.not_le.mpr positive)
  | append_singleton log entry ih =>
    obtain ⟨call, id⟩ := entry
    rw [Log.unlabelled_concat] at bound
    rcases Nat.lt_or_ge (Log.unlabelled log) k with last | earlier
    · have unlabelled : call = .blank none := by
        by_contra other
        rw [if_neg other] at bound
        omega
      subst unlabelled
      refine ⟨log.length, id, List.getElem?_concat_length, ?_⟩
      rw [if_pos rfl] at bound
      rw [List.take_left]
      omega
    · obtain ⟨n, id, found, number⟩ := ih earlier
      have inside : n < log.length := (List.getElem?_eq_some_iff.mp found).1
      refine ⟨n, id, by rw [List.getElem?_append_left inside, found], ?_⟩
      rwa [List.take_append_of_le_length (Nat.le_of_lt inside)]

theorem Keeps.node (keeps : c.Keeps log) {label : Option String}
    (found : log[n]? = some (.blank label, id)) : ∃ i, id = some i ∧ c.term i =
      .blank (label.getD ("genid" ++ toString (Log.unlabelled (log.take n) + 1))) :=
  Option.map_eq_some_iff.mp (keeps.created n _ id found)

theorem Keeps.term_eq (keeps : c.Keeps log) {label : Option String} {i : Nat}
    (found : log[n]? = some (.blank label, some i)) : c.term i =
      .blank (label.getD ("genid" ++ toString (Log.unlabelled (log.take n) + 1))) :=
  Option.some.inj (keeps.created n _ _ found)

theorem genid_inj {a b : Nat} (same : "genid" ++ toString a = "genid" ++ toString b) : a = b :=
  Text.toString_inj ((String.append_right_inj "genid").mp same)

/-- No label was passed that a node without a label has. -/
def Log.LabelsApart (log : Log) : Prop :=
  ∀ label id, (.blank (some label), id) ∈ log →
    ∀ k, 0 < k → k ≤ log.unlabelled → label ≠ "genid" ++ toString k

theorem Keeps.followLabels (keeps : c.Keeps log) (apart : log.LabelsApart) :
    log.Pairwise (FollowLabels c.term) := by
  rw [List.pairwise_iff_getElem]
  intro n m hn hm before a i b j first second
  have foundFirst : log[n]? = some (.blank a, some i) := by rw [List.getElem?_eq_getElem hn, first]
  have foundSecond : log[m]? = some (.blank b, some j) := by
    rw [List.getElem?_eq_getElem hm, second]
  rw [keeps.term_eq foundFirst, keeps.term_eq foundSecond, Term.blank.injEq]
  cases a with
  | none =>
    cases b with
    | none =>
      refine iff_of_false (fun same => ?_) nofun
      have counted := Log.unlabelled_take_lt foundFirst before
      have number := genid_inj same
      omega
    | some label =>
      refine iff_of_false (fun same => ?_) nofun
      exact apart label _ (List.mem_of_getElem? foundSecond) _ (Nat.succ_pos _)
        (Log.unlabelled_take_le foundFirst) same.symm
  | some label =>
    cases b with
    | none =>
      refine iff_of_false (fun same => ?_) nofun
      exact apart label _ (List.mem_of_getElem? foundFirst) _ (Nat.succ_pos _)
        (Log.unlabelled_take_le foundSecond) same
    | some other => simp [eq_comm]

theorem Keeps.labelsApart (keeps : c.Keeps log) (follow : log.Pairwise (FollowLabels c.term)) :
    log.LabelsApart := by
  intro label id mem k positive bound same
  obtain ⟨n, found⟩ := List.mem_iff_getElem?.mp mem
  obtain ⟨m, id', unlabelled, number⟩ := Log.exists_unlabelled positive bound
  obtain ⟨i, rfl, node⟩ := keeps.node found
  obtain ⟨j, rfl, node'⟩ := keeps.node unlabelled
  have shared : c.term i = c.term j := by
    rw [node, node', number, ← same]
    rfl
  obtain ⟨hn, first⟩ := List.getElem?_eq_some_iff.mp found
  obtain ⟨hm, second⟩ := List.getElem?_eq_some_iff.mp unlabelled
  rcases Nat.lt_trichotomy n m with before | rfl | behind
  · obtain ⟨_, -, none⟩ := ((List.pairwise_iff_getElem.mp follow) n m hn hm before _ _ _ _
      first second).mp shared
    cases none
  · rw [found] at unlabelled
    cases unlabelled
  · obtain ⟨_, none, -⟩ := ((List.pairwise_iff_getElem.mp follow) m n hm hn behind _ _ _ _
      second first).mp shared.symm
    cases none

/-- In a session a call goes through as long as it uses numbers that were given. Each number stands
for the term that it was given for, in every statement of the session. Nodes are one exactly where
the same label was passed, if nobody passed a label that a node without a label has, and only
then. -/
theorem nodes_follow_labels_iff (session : Session log c) :
    (∀ call : Call, (call.run c).isSome ↔
      ∀ i ∈ call.uses, ∃ earlier, (earlier, some i) ∈ log) ∧
    ∃ term : Nat → Term,
      (∀ (n : Nat) (call : Call) (id : Option Nat), log[n]? = some (call, id) →
        id.map term = call.term? (Log.unlabelled (log.take n))) ∧
      c.graph.triples = log.filterMap (fun entry => entry.1.statement? term) ∧
      (log.Pairwise (FollowLabels term) ↔ log.LabelsApart) := by
  have keeps := keeps_of_session session
  refine ⟨fun call => ?_, c.term, keeps.created, keeps.stated,
    ⟨keeps.labelsApart, keeps.followLabels⟩⟩
  rw [isSome_run_iff]
  exact forall₂_congr fun i _ => keeps.known i

end Nodes

/-- A node with a label, one without, and a statement about both. -/
def statedOf (label : String) : Log :=
  [(.blank (some label), some 0), (.blank none, some 1), (.blank (some label), some 0),
    (.iri "http://x.org/part", some 2), (.emit 0 2 1, none)]

theorem session_statedOf (label : String) : ∃ c, Session (statedOf label) c ∧
    c.graph.triples = [⟨.blank label, .iri "http://x.org/part", .blank "genid1"⟩] := by
  let both : Collector :=
    { terms := #[.blank label, .blank ("genid" ++ toString 1)], unlabelled := 1,
      labels := [(label, 0)] }
  have labelled : Session [(.blank (some label), some 0)]
      { terms := #[.blank label], labels := [(label, 0)] } := .call .start rfl
  have unlabelled : Session [(.blank (some label), some 0), (.blank none, some 1)] both :=
    labelled.call rfl
  have again : Call.run both (.blank (some label)) = some (some 0, both) := by
    simp [Call.run, newBlank, Entries.get?, both]
  have named := @Session.call _ _ _ (.iri "http://x.org/part") _ (unlabelled.call again) rfl
  have number : "genid" ++ toString 1 = "genid1" := by decide
  refine ⟨_, named.call rfl, ?_⟩
  rw [← number]
  rfl

theorem part_apart_from_whole : ∃ c, Session (statedOf "whole") c ∧
    Log.LabelsApart (statedOf "whole") ∧ ∃ term : Nat → Term,
      c.graph.triples = [⟨term 0, term 2, term 1⟩] ∧
      (statedOf "whole").Pairwise (FollowLabels term) := by
  obtain ⟨c, session, -⟩ := session_statedOf "whole"
  obtain ⟨-, term, -, stated, follow⟩ := nodes_follow_labels_iff session
  have apart : Log.LabelsApart (statedOf "whole") := by
    intro label id mem k positive bound
    have only : label = "whole" ∧ id = some 0 := by simpa [statedOf] using mem
    have one : k = 1 := Nat.le_antisymm bound positive
    rw [only.1, one]
    decide
  exact ⟨c, session, apart, term, stated, follow.mpr apart⟩

/-- A node without a label becomes one with a node whose label looks like a number. -/
theorem part_becomes_whole : ∃ c, Session (statedOf "genid1") c ∧
    c.graph.triples = [⟨.blank "genid1", .iri "http://x.org/part", .blank "genid1"⟩] ∧
    ¬ (statedOf "genid1").Pairwise (FollowLabels c.term) := by
  obtain ⟨c, session, stated⟩ := session_statedOf "genid1"
  refine ⟨c, session, stated, fun follow => ?_⟩
  have apart := (keeps_of_session session).labelsApart follow
  exact apart "genid1" (some 0) List.mem_cons_self 1 Nat.one_pos (Nat.le_refl 1) (by decide)

end CatalogGraph.Collector
