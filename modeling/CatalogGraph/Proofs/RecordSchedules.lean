import CatalogGraph.Proofs.SharedServices
import Mathlib.Logic.Relation

/-!
Schedules of records: whatever the number of slots, the order in which tasks come to their ends and
the moment at which work is told to stop, the report has each record that was started once, in the
order of the identifiers, with what the record gives alone.
-/
namespace CatalogGraph.Harvest
variable {σ : Type}

namespace RecordReport

/-- The graph of a record with its place, if it has one. -/
def success? (outcome : String → Nat → Outcome) (item : String × Nat) : Option (Nat × Graph) :=
  match outcome item.1 item.2 with
  | .ok g => some (item.2, g)
  | .error _ => none

/-- The identifier of a record without a graph, and why it has none. -/
def failure? (outcome : String → Nat → Outcome) (item : String × Nat) :
    Option (String × HarvestError) :=
  match outcome item.1 item.2 with
  | .ok _ => none
  | .error e => some (item.1, e)

def successes (outcome : String → Nat → Outcome) (identifiers : List String) :
    List (Nat × Graph) :=
  identifiers.zipIdx.filterMap (success? outcome)

def failures (outcome : String → Nat → Outcome) (identifiers : List String) :
    List (String × HarvestError) :=
  identifiers.zipIdx.filterMap (failure? outcome)

/-- Adds the graphs of records in order, the blank nodes of each under the place of its record. -/
def mergeInto (whole : Graph) (graphs : List (Nat × Graph)) : Graph :=
  graphs.foldl (fun whole (place, g) => whole.mergeScoped g ("r" ++ toString place ++ "_")) whole

theorem success?_of_ok {outcome : String → Nat → Outcome} {identifier : String} {place : Nat}
    {g : Graph} (given : outcome identifier place = .ok g) :
    success? outcome (identifier, place) = some (place, g) ∧
      failure? outcome (identifier, place) = none := by
  simp [success?, failure?, given]

theorem failure?_of_error {outcome : String → Nat → Outcome} {identifier : String} {place : Nat}
    {e : HarvestError} (given : outcome identifier place = .error e) :
    success? outcome (identifier, place) = none ∧
      failure? outcome (identifier, place) = some (identifier, e) := by
  simp [success?, failure?, given]

theorem foldl_record (outcome : String → Nat → Outcome) (items : List (String × Nat))
    (report : RecordReport) :
    items.foldl (fun report (identifier, place) =>
      report.record place identifier (outcome identifier place)) report =
    { succeeded := report.succeeded + (items.filterMap (success? outcome)).length
      failed := report.failed ++ items.filterMap (failure? outcome)
      cancelled := report.cancelled
      graph := mergeInto report.graph (items.filterMap (success? outcome)) } := by
  induction items generalizing report with
  | nil => simp [mergeInto]
  | cons item rest ih =>
    rw [List.foldl_cons, ih]
    obtain ⟨identifier, place⟩ := item
    cases given : outcome identifier place with
    | ok g =>
      obtain ⟨success, failure⟩ := success?_of_ok given
      rw [List.filterMap_cons_some success, List.filterMap_cons_none failure]
      simp [record, given, mergeInto, Nat.add_assoc, Nat.add_comm 1]
    | error e =>
      obtain ⟨success, failure⟩ := failure?_of_error given
      rw [List.filterMap_cons_none success, List.filterMap_cons_some failure]
      simp [record, given]

theorem length_successes_add_failures (outcome : String → Nat → Outcome)
    (identifiers : List String) :
    (successes outcome identifiers).length + (failures outcome identifiers).length =
      identifiers.length := by
  have each (items : List (String × Nat)) : (items.filterMap (success? outcome)).length +
      (items.filterMap (failure? outcome)).length = items.length := by
    induction items with
    | nil => rfl
    | cons item rest ih =>
      obtain ⟨identifier, place⟩ := item
      cases given : outcome identifier place with
      | ok g =>
        obtain ⟨success, failure⟩ := success?_of_ok given
        rw [List.filterMap_cons_some success, List.filterMap_cons_none failure]
        simp only [List.length_cons]
        omega
      | error e =>
        obtain ⟨success, failure⟩ := failure?_of_error given
        rw [List.filterMap_cons_none success, List.filterMap_cons_some failure]
        simp only [List.length_cons]
        omega
  exact (each identifiers.zipIdx).trans List.length_zipIdx

theorem ofOutcomes_eq {identifiers : List String} {outcomes : List (Nat × Outcome)}
    {outcome : String → Nat → Outcome}
    (given : ∀ place identifier, identifiers[place]? = some identifier →
      outcomes.lookup place = some (outcome identifier place)) :
    ofOutcomes identifiers outcomes =
      { succeeded := (successes outcome identifiers).length
        failed := failures outcome identifiers
        graph := mergeInto {} (successes outcome identifiers) } := by
  have same : ofOutcomes identifiers outcomes =
      identifiers.zipIdx.foldl (fun report (identifier, place) =>
        report.record place identifier (outcome identifier place)) {} := by
    apply List.foldl_ext
    rintro report ⟨identifier, place⟩ listed
    have found := given place identifier (List.mk_mem_zipIdx_iff_getElem?.mp listed)
    simp only [found, Option.getD_some]
  rw [same, foldl_record]
  simp [successes, failures]

end RecordReport

namespace Batch
variable {batch : Batch σ} {p q : Progress}

/-- What a run of the batch can come to. -/
abbrev Reached (batch : Batch σ) (p : Progress) : Prop :=
  Relation.ReflTransGen (Step batch) {} p

/-- What the record in a place gives if nothing else goes on. -/
def alone (batch : Batch σ) (s : σ) (identifier : String) (place : Nat) : Outcome :=
  ((batch.mapper.drawing (batch.uuids place)).mapRecord identifier s).1

/-- Each task that was started is running, or has come to an end with what its record gives. -/
structure Consistent (batch : Batch σ) (s : σ) (p : Progress) : Prop where
  bound : p.dispatched ≤ batch.identifiers.length
  started : ∀ place ∈ p.running, place < p.dispatched
  covered : ∀ place < p.dispatched, place ∈ p.running ∨ ∃ outcome, (place, outcome) ∈ p.finished
  gave : ∀ place outcome, (place, outcome) ∈ p.finished → ∃ identifier,
    batch.identifiers[place]? = some identifier ∧ outcome = batch.alone s identifier place
  taking : p.isCancelled = false → p.isClosed = false

theorem consistent_start (s : σ) : Consistent batch s {} where
  bound := Nat.zero_le _
  started := by simp
  covered := by simp
  gave := by simp
  taking := fun _ => rfl

theorem Consistent.step (alike : batch.mapper.AnswersAlike) {s : σ}
    (consistent : Consistent batch s p) (step : Step batch p q) : Consistent batch s q := by
  obtain ⟨bound, started, covered, gave, taking⟩ := consistent
  cases step with
  | dispatch more _ taking' going =>
    refine ⟨more, ?_, ?_, gave, fun _ => taking'⟩
    · intro place running
      rcases List.mem_append.mp running with earlier | last
      · exact Nat.lt_succ_of_lt (started place earlier)
      · rw [List.mem_singleton.mp last]
        exact Nat.lt_succ_self _
    · intro place before
      rcases Nat.lt_succ_iff_lt_or_eq.mp before with earlier | rfl
      · rcases covered place earlier with running | finished
        · exact .inl (List.mem_append_left _ running)
        · exact .inr finished
      · exact .inl (List.mem_append_right _ (List.mem_singleton_self _))
  | close _ _ _ stopped =>
    refine ⟨bound, started, covered, gave, ?_⟩
    intro going
    simp [stopped] at going
  | cancel going => exact ⟨bound, started, covered, gave, fun stopped => by cases stopped⟩
  | @finish before after place identifier outcome task named gives =>
    -- One place passes from `running` to `finished`, and the others stay where they are.
    refine ⟨bound, ?_, ?_, ?_, taking⟩
    · intro other running
      apply started other
      rw [task]
      rcases List.mem_append.mp running with first | second
      · exact List.mem_append_left _ first
      · exact List.mem_append_right _ (List.mem_cons_of_mem _ second)
    · intro other earlier
      rcases covered other earlier with running | ⟨found, finished⟩
      · rw [task] at running
        rcases List.mem_append.mp running with first | second
        · exact .inl (List.mem_append_left _ first)
        · rcases List.mem_cons.mp second with rfl | second
          · exact .inr ⟨outcome, List.mem_append_right _ (List.mem_singleton_self _)⟩
          · exact .inl (List.mem_append_right _ second)
      · exact .inr ⟨found, List.mem_append_left _ finished⟩
    · intro other found finished
      rcases List.mem_append.mp finished with earlier | last
      · exact gave other found earlier
      · obtain ⟨rfl, rfl⟩ := Prod.mk.inj (List.mem_singleton.mp last)
        exact ⟨identifier, named, ((alike.drawing _).mayGive_iff s).mp gives⟩

theorem Consistent.of_reached (alike : batch.mapper.AnswersAlike) (s : σ)
    (reached : Reached batch p) : Consistent batch s p := by
  induction reached with
  | refl => exact consistent_start s
  | tail _ step ih => exact ih.step alike step

theorem Consistent.lookup_finished {s : σ} (consistent : Consistent batch s p)
    (idle : p.running = []) {place : Nat} {identifier : String}
    (named : (batch.identifiers.take p.dispatched)[place]? = some identifier) :
    p.finished.lookup place = some (batch.alone s identifier place) := by
  rw [List.getElem?_take] at named
  split at named
  next before =>
    have found : (p.finished.lookup place).isSome := by
      rcases consistent.covered place before with running | ⟨outcome, finished⟩
      · simp [idle] at running
      · exact List.lookup_isSome_iff.mpr ⟨_, finished, by simp⟩
    obtain ⟨outcome, given⟩ := Option.isSome_iff_exists.mp found
    obtain ⟨earlier, later, split, _⟩ := List.lookup_eq_some_iff.mp given
    obtain ⟨other, named', rfl⟩ := consistent.gave place outcome (by simp [split])
    obtain rfl : identifier = other := by
      rw [← Option.some_inj, ← named, named']
    exact given
  next => cases named

theorem Consistent.report_eq {s : σ} (consistent : Consistent batch s p) (ended : IsOver batch p) :
    batch.report p =
      { succeeded :=
          (RecordReport.successes (batch.alone s) (batch.identifiers.take p.dispatched)).length
        failed := RecordReport.failures (batch.alone s) (batch.identifiers.take p.dispatched)
        cancelled := batch.identifiers.drop p.dispatched
        graph := RecordReport.mergeInto {}
          (RecordReport.successes (batch.alone s) (batch.identifiers.take p.dispatched)) } := by
  unfold report
  rw [RecordReport.ofOutcomes_eq fun _ _ named => consistent.lookup_finished ended.2 named]

theorem Consistent.dispatched_eq {s : σ} (consistent : Consistent batch s p)
    (ended : IsOver batch p) (going : p.isCancelled = false) :
    p.dispatched = batch.identifiers.length := by
  rcases ended.1 with all | closed
  · exact all
  · simp [consistent.taking going] at closed

section Ends

/-- A bound on the number of steps that are left. -/
def left (batch : Batch σ) (p : Progress) : Nat :=
  2 * (batch.identifiers.length - p.dispatched) + p.running.length +
    (1 - p.isClosed.toNat) + (1 - p.isCancelled.toNat)

theorem Step.left_lt (step : Step batch p q) : left batch q < left batch p := by
  unfold left
  cases step with
  | dispatch more =>
    simp only [List.length_append, List.length_singleton]
    omega
  | close _ _ taking => simp [taking]
  | cancel going => simp [going]
  | finish task =>
    simp only [task, List.length_append, List.length_cons]
    omega

/-- No task is left waiting: what is not over goes on. -/
theorem Consistent.exists_step (alike : batch.mapper.AnswersAlike) {s : σ}
    (consistent : Consistent batch s p) (unfinished : ¬ IsOver batch p) :
    ∃ q, Step batch p q := by
  cases running : p.running with
  | cons place rest =>
    have inside : place < batch.identifiers.length :=
      Nat.lt_of_lt_of_le (consistent.started place (by simp [running])) consistent.bound
    have task : p.running = [] ++ place :: rest := running
    exact ⟨_, .finish task (List.getElem?_eq_getElem inside)
      (((alike.drawing _).mayGive_iff s).mpr rfl)⟩
  | nil =>
    have more : p.dispatched < batch.identifiers.length := by
      apply Nat.lt_of_le_of_ne consistent.bound
      intro all
      exact unfinished ⟨.inl all, running⟩
    have slot : p.running.length < max batch.concurrency 1 := by
      rw [running]
      exact Nat.lt_of_lt_of_le Nat.one_pos (Nat.le_max_right _ _)
    have taking : p.isClosed = false := by
      rw [← Bool.not_eq_true]
      intro closed
      exact unfinished ⟨.inr closed, running⟩
    cases cancelled : p.isCancelled with
    | false => exact ⟨_, .dispatch more slot taking cancelled⟩
    | true => exact ⟨_, .close more slot taking cancelled⟩

theorem step_wellFounded (batch : Batch σ) : WellFounded (fun q p => Step batch p q) :=
  Subrelation.wf (fun step => step.left_lt) (measure (left batch)).wf

end Ends

theorem slot_of_idle (idle : p.running = []) : p.running.length < max batch.concurrency 1 := by
  rw [idle]
  exact Nat.lt_of_lt_of_le Nat.one_pos (Nat.le_max_right _ _)

/-- While no task is running, the next record may be mapped from start to end. -/
theorem steps_of_idle (alike : batch.mapper.AnswersAlike)
    (own : ∀ place, batch.uuids place = batch.mapper.engine.uuids) (s : σ) {identifier : String}
    (named : batch.identifiers[p.dispatched]? = some identifier) (idle : p.running = [])
    (taking : p.isClosed = false) (going : p.isCancelled = false) :
    Relation.ReflTransGen (Step batch) p
      { p with
        dispatched := p.dispatched + 1
        running := []
        finished := p.finished ++ [(p.dispatched, (batch.mapper.mapRecord identifier s).1)] } := by
  obtain ⟨more, _⟩ := List.getElem?_eq_some_iff.mp named
  let q : Progress :=
    { p with dispatched := p.dispatched + 1, running := p.running ++ [p.dispatched] }
  have started : Step batch p q := .dispatch more (slot_of_idle idle) taking going
  have task : q.running = [] ++ p.dispatched :: [] := congrArg (· ++ [p.dispatched]) idle
  have gives : (batch.mapper.drawing (batch.uuids p.dispatched)).MayGive identifier
      (batch.mapper.mapRecord identifier s).1 := by
    rw [own]
    exact (alike.mayGive_iff s).mpr rfl
  have finished : Step batch q
      { q with
        running := [] ++ []
        finished := p.finished ++ [(p.dispatched, (batch.mapper.mapRecord identifier s).1)] } :=
    .finish task named gives
  exact .head started (.single finished)

/-- To map records one by one is to start a task when the one before it has come to its end. -/
theorem exists_over_of_mapRecords (alike : batch.mapper.AnswersAlike)
    (own : ∀ place, batch.uuids place = batch.mapper.engine.uuids) {rest : List String} (s : σ)
    (bound : p.dispatched ≤ batch.identifiers.length)
    (remaining : batch.identifiers.drop p.dispatched = rest) (idle : p.running = [])
    (taking : p.isClosed = false) (going : p.isCancelled = false) :
    ∃ q, Relation.ReflTransGen (Step batch) p q ∧ IsOver batch q ∧
      q.finished = p.finished ++ (batch.mapper.mapRecords p.dispatched rest s).1 ∧
      q.dispatched = p.dispatched + (batch.mapper.mapRecords p.dispatched rest s).1.length ∧
      (batch.mapper.mapRecords p.dispatched rest s).2.1 = batch.identifiers.drop q.dispatched := by
  -- Between two records nothing is running: `idle` and `remaining` hold again after each.
  induction rest generalizing p s with
  | nil =>
    have all : p.dispatched = batch.identifiers.length :=
      Nat.le_antisymm bound (List.drop_eq_nil_iff.mp remaining)
    exact ⟨p, .refl, ⟨.inl all, idle⟩, by simp [RecordMapper.mapRecords],
      by simp [RecordMapper.mapRecords], by simp [RecordMapper.mapRecords, remaining]⟩
  | cons identifier rest ih =>
    have named : batch.identifiers[p.dispatched]? = some identifier := by
      rw [← List.head?_drop, remaining, List.head?_cons]
    obtain ⟨more, _⟩ := List.getElem?_eq_some_iff.mp named
    cases stopped : batch.mapper.repository.isCancelled s with
    | true =>
      have cancelled : Step batch p { p with isCancelled := true } := .cancel going
      have closed : Step batch { p with isCancelled := true }
          { p with isCancelled := true, isClosed := true } :=
        .close more (slot_of_idle idle) taking rfl
      refine ⟨_, .head cancelled (.single closed), ⟨.inr rfl, idle⟩, ?_, ?_, ?_⟩
      all_goals simp [RecordMapper.mapRecords, stopped, remaining]
    | false =>
      have remaining' : batch.identifiers.drop (p.dispatched + 1) = rest := by
        rw [← List.tail_drop, remaining, List.tail_cons]
      obtain ⟨q, steps, ended, finished, dispatched, left⟩ :=
        @ih { p with
              dispatched := p.dispatched + 1
              running := []
              finished := p.finished ++
                [(p.dispatched, (batch.mapper.mapRecord identifier s).1)] }
          (batch.mapper.mapRecord identifier s).2 more remaining' rfl taking going
      refine ⟨q, (steps_of_idle alike own s named idle taking going).trans steps, ended, ?_, ?_, ?_⟩
      · simp [finished, RecordMapper.mapRecords, stopped]
      · simp [dispatched, RecordMapper.mapRecords, stopped, Nat.add_assoc, Nat.add_comm 1]
      · simp [left, RecordMapper.mapRecords, stopped]

theorem exists_over_of_run (alike : batch.mapper.AnswersAlike)
    (own : ∀ place, batch.uuids place = batch.mapper.engine.uuids) (s : σ) :
    ∃ p, Reached batch p ∧ IsOver batch p ∧
      (batch.mapper.run batch.identifiers s).1 = batch.report p := by
  obtain ⟨p, steps, ended, finished, dispatched, left⟩ :=
    @exists_over_of_mapRecords _ batch {} alike own _ s (Nat.zero_le _) List.drop_zero rfl rfl rfl
  refine ⟨p, steps, ended, ?_⟩
  rw [List.nil_append] at finished
  rw [Nat.zero_add] at dispatched
  simp only [RecordMapper.run, report, finished, dispatched, left]

/-- The batch with another number of slots. -/
def withConcurrency (batch : Batch σ) (concurrency : Nat) : Batch σ := { batch with concurrency }

/-- Whatever the number of slots, the order in which the tasks come to their ends and the moment at
which work is told to stop, the report of a batch has the first identifiers each once, with what
their records give alone, and the others as cancelled; a batch that is not cancelled always has the
same report. A run of a batch goes on until it is over, which it is after finitely many steps, and
to map the records one by one is such a run. -/
theorem report_independent_of_schedule (batch : Batch σ) (s : σ)
    (alike : batch.mapper.AnswersAlike) :
    (∀ p, Reached batch p → IsOver batch p → ∃ n ≤ batch.identifiers.length,
      (p.isCancelled = false → n = batch.identifiers.length) ∧
      (batch.report p).cancelled = batch.identifiers.drop n ∧
      (batch.report p).succeeded + (batch.report p).failed.length = n ∧
      (batch.report p).succeeded =
        (RecordReport.successes (batch.alone s) (batch.identifiers.take n)).length ∧
      (batch.report p).failed =
        RecordReport.failures (batch.alone s) (batch.identifiers.take n) ∧
      (batch.report p).graph = RecordReport.mergeInto {}
        (RecordReport.successes (batch.alone s) (batch.identifiers.take n))) ∧
    (∀ concurrency p q, Reached batch p → IsOver batch p → p.isCancelled = false →
      Reached (batch.withConcurrency concurrency) q → IsOver (batch.withConcurrency concurrency) q →
      q.isCancelled = false → (batch.withConcurrency concurrency).report q = batch.report p) ∧
    (∀ p, Reached batch p → ¬ IsOver batch p → ∃ q, Step batch p q) ∧
    WellFounded (fun q p => Step batch p q) ∧
    ((∀ place, batch.uuids place = batch.mapper.engine.uuids) → ∃ p, Reached batch p ∧
      IsOver batch p ∧ (batch.mapper.run batch.identifiers s).1 = batch.report p) := by
  refine ⟨?_, ?_, ?_, step_wellFounded batch, fun own => exists_over_of_run alike own s⟩
  · intro p reached ended
    have consistent := Consistent.of_reached alike s reached
    refine ⟨p.dispatched, consistent.bound, consistent.dispatched_eq ended, ?_⟩
    rw [consistent.report_eq ended]
    refine ⟨rfl, ?_, rfl, rfl, rfl⟩
    rw [RecordReport.length_successes_add_failures, List.length_take_of_le consistent.bound]
  · intro concurrency p q reached ended going reached' ended' going'
    have first := Consistent.of_reached alike s reached
    have alike' : (batch.withConcurrency concurrency).mapper.AnswersAlike := alike
    have second := Consistent.of_reached alike' s reached'
    rw [first.report_eq ended, second.report_eq ended', first.dispatched_eq ended going,
      second.dispatched_eq ended' going']
    rfl
  · intro p reached
    exact (Consistent.of_reached alike s reached).exists_step alike

/-- A repository that counts its requests and has one record. -/
def singleRecord : Repository Nat where
  list _ n := (.ok {}, n + 1)
  record identifier _ n :=
    (if identifier = "oai:1" then .ok (.rows [{ header := ["title"], values := ["Moby Dick"] }])
      else .error (.protocol "idDoesNotExist" identifier), n + 1)

def editions : TriplesMap where
  iri := "editions"
  logicalSource := some { formulation := .rows }
  subjectMap := some { term := some .blank }
  predicateObjectMaps := [{ predicate := "title", object := .reference "title" }]

/-- The one record twice, and between them one that does not exist. -/
def repeated : Batch Nat where
  mapper :=
    { repository := singleRecord
      engine := { mapping := { maps := [editions] } }
      metadataPrefix := "mods" }
  identifiers := ["oai:1", "oai:2", "oai:1"]
  concurrency := 2

theorem repeated_answersAlike : repeated.mapper.AnswersAlike where
  record _ _ _ _ := rfl
  store store given := by cases given

theorem repeated_reported_in_order :
    repeated.mapper.AnswersAlike ∧ ∃ p, Reached repeated p ∧ IsOver repeated p ∧
      p.finished.map (·.1) = [1, 2, 0] ∧ (repeated.report p).cancelled = [] ∧
      (repeated.report p).succeeded = 2 ∧
      (repeated.report p).failed = [("oai:2", .protocol "idDoesNotExist" "oai:2")] ∧
      (repeated.report p).graph.triples =
        [⟨.blank "r0_b0", .iri "title", .string "Moby Dick"⟩,
          ⟨.blank "r2_b0", .iri "title", .string "Moby Dick"⟩] := by
  refine ⟨repeated_answersAlike, ?_⟩
  have gives (identifier : String) (place : Nat) : (repeated.mapper.drawing
      (repeated.uuids place)).MayGive identifier (repeated.alone 0 identifier place) :=
    ((repeated_answersAlike.drawing _).mayGive_iff 0).mpr rfl
  have reached : Reached repeated
      { dispatched := 3
        finished := [(1, repeated.alone 0 "oai:2" 1), (2, repeated.alone 0 "oai:1" 2),
          (0, repeated.alone 0 "oai:1" 0)] } := by
    have first : ([0, 1] : List Nat) = [0] ++ 1 :: [] := rfl
    have second : ([0, 2] : List Nat) = [0] ++ 2 :: [] := rfl
    have third : ([0] : List Nat) = [] ++ 0 :: [] := rfl
    exact .head (.dispatch (by decide) (by decide) rfl rfl) <|
      .head (.dispatch (by decide) (by decide) rfl rfl) <|
      .head (.finish first rfl (gives "oai:2" 1)) <|
      .head (.dispatch (by decide) (by decide) rfl rfl) <|
      .head (.finish second rfl (gives "oai:1" 2)) <|
      .head (.finish third rfl (gives "oai:1" 0)) .refl
  obtain ⟨given, _⟩ := report_independent_of_schedule repeated 0 repeated_answersAlike
  obtain ⟨n, _, all, cancelled, _, succeeded, failed, graph⟩ := given _ reached ⟨.inl rfl, rfl⟩
  obtain rfl : n = 3 := all rfl
  refine ⟨_, reached, ⟨.inl rfl, rfl⟩, rfl, cancelled, ?_, ?_, ?_⟩
  · rw [succeeded]
    decide +kernel
  · rw [failed]
    decide +kernel
  · rw [graph]
    decide +kernel

end Batch
end CatalogGraph.Harvest
