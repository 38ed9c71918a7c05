import CatalogGraph.Proofs.ConvergingNames

/-!
Reports of passes: each entity that a pass examines is skipped, gets a name or fails, and the report
tells which. A call that fails leaves the graph and the minted names as they were, and the calls
behind it are made all the same.
-/
namespace CatalogGraph.Identity
variable {σ : Type}

namespace Index
variable {source : CandidateSource σ} {key : CandidateKey} {label : String} {index : Index} {s : σ}

theorem candidates_minted : (index.candidates source key label s).2.1.minted = index.minted := by
  have kept : (index.answer source key label s).2.1.minted = index.minted := answer_minted
  unfold candidates
  split
  next asked => rwa [asked] at kept
  next asked => rwa [asked] at kept

end Index

/-- Where no name is found, none is minted. -/
theorem choose_minted_of_error {settings : Settings} {source : CandidateSource σ}
    {cls label : String} {entity : Term} {s : State σ} {e : IdentityError}
    (failed : (choose settings source cls entity label s).1 = .error e) :
    (choose settings source cls entity label s).2.1.minted = s.index.minted := by
  have kept : (s.index.candidates source (keyFor s.graph cls entity) label s.source).2.1.minted =
      s.index.minted := Index.candidates_minted
  unfold choose at failed ⊢
  split
  next => rfl
  next invalid =>
    rw [if_neg invalid] at failed
    split
    next => rfl
    next unusable =>
      rw [if_neg unusable] at failed
      split
      next asked => rwa [asked] at kept
      next asked =>
        rw [asked] at failed
        dsimp only at failed
        split at failed <;> cases failed

namespace Call

/-- The assertion that a call gives, unless it fails. -/
def assertion? (settings : Settings) (source : CandidateSource σ) (call : Call σ) :
    Option Assertion :=
  (call.outcome settings source).toOption

/-- The entity of a call that fails. -/
def failed? (settings : Settings) (source : CandidateSource σ) (call : Call σ) : Option Term :=
  match call.outcome settings source with
  | .ok _ => none
  | .error _ => some call.entity

theorem assertion?_eq_some_iff {settings : Settings} {source : CandidateSource σ} {call : Call σ}
    {a : Assertion} : call.assertion? settings source = some a ↔
      call.outcome settings source = .ok a := by
  unfold assertion?
  cases call.outcome settings source <;> simp [Except.toOption]

/-- A call that fails leaves the graph and the minted names as they were. -/
theorem kept_of_error {settings : Settings} {source : CandidateSource σ} {call : Call σ}
    {e : IdentityError} (failed : call.outcome settings source = .error e) :
    (call.after settings source).graph = call.before.graph ∧
      (call.after settings source).index.minted = call.before.index.minted := by
  unfold Call.outcome resolveOrMint at failed
  unfold Call.after resolveOrMint
  rcases chosen : choose settings source call.cls call.entity call.label call.before with
    ⟨e' | choice, later, t⟩
  · have kept := choose_minted_of_error (congrArg Prod.fst chosen)
    rw [chosen] at kept
    exact ⟨rfl, kept⟩
  · simp [chosen] at failed

end Call

/-- The turn of a class in a pass. -/
structure Turn (σ : Type) where
  cls : String
  before : State σ

namespace Turn

/-- The entities that are examined. -/
def entities (settings : Settings) (turn : Turn σ) : List Term :=
  transientEntities settings turn.before.graph turn.cls

/-- The entities without a label from which a name could be made. -/
def unlabelled (settings : Settings) (turn : Turn σ) : List Term :=
  (turn.entities settings).filter fun entity =>
    (usableLabel? settings turn.before.graph entity).isNone

/-- The calls for the other entities, whether those before them fail or not. -/
def calls (settings : Settings) (source : CandidateSource σ) (turn : Turn σ) : List (Call σ) :=
  eachCall settings source turn.cls (labelledEntities settings turn.before.graph turn.cls)
    turn.before

/-- The report once the entities are counted. -/
def opened (settings : Settings) (turn : Turn σ) (report : Report) : Report :=
  { report with
    examined := report.examined + (turn.entities settings).length
    skipped := report.skipped + ((turn.entities settings).length -
      (labelledEntities settings turn.before.graph turn.cls).length) }

end Turn

/-- The turns of a pass. -/
def turnsOf (settings : Settings) (source : CandidateSource σ) :
    List String → State σ → List (Turn σ)
  | [], _ => []
  | cls :: rest, s =>
    ⟨cls, s⟩ :: turnsOf settings source rest (resolveClass settings source {} s cls).2

/-- A report tells the outcome for each entity of the turns. -/
structure Accounts (settings : Settings) (source : CandidateSource σ) (turns : List (Turn σ))
    (report : Report) : Prop where
  examined : report.examined = (turns.flatMap (·.entities settings)).length
  skipped : report.skipped = (turns.flatMap (·.unlabelled settings)).length
  assertions : report.assertions =
    (turns.flatMap (·.calls settings source)).filterMap (·.assertion? settings source)
  failed : report.failed =
    (turns.flatMap (·.calls settings source)).filterMap (·.failed? settings source)
  matched : report.matched = report.assertions.countP (·.resolution = .matched)
  minted : report.minted = report.assertions.countP (·.resolution = .minted)

section Reports
variable {settings : Settings} {source : CandidateSource σ}

theorem map_turnsOf (classes : List String) (s : State σ) :
    (turnsOf settings source classes s).map (·.cls) = classes := by
  induction classes generalizing s with
  | nil => rfl
  | cons cls rest ih => exact congrArg (cls :: ·) (ih _)

/-- The calls of a pass are those of its turns. -/
theorem calls_turnsOf (classes : List String) (s : State σ) :
    (turnsOf settings source classes s).flatMap (·.calls settings source) =
      passCalls settings source classes s := by
  induction classes generalizing s with
  | nil => rfl
  | cons cls rest ih => rw [turnsOf, List.flatMap_cons, ih, passCalls, Turn.calls]

theorem record_failed (report : Report) (call : Call σ) :
    (report.record call.entity (call.outcome settings source)).failed =
      report.failed ++ (call.failed? settings source).toList := by
  unfold Call.failed?
  rcases call.outcome settings source with e | ⟨_, _, _, _ | _⟩ <;> simp [Report.record]

theorem record_counts (report : Report) (entity : Term) (outcome : Except IdentityError Assertion) :
    (report.record entity outcome).examined = report.examined ∧
      (report.record entity outcome).skipped = report.skipped := by
  rcases outcome with e | ⟨_, _, _, _ | _⟩ <;> exact ⟨rfl, rfl⟩

/-- The numbers of matched and of minted names are those of the assertions. -/
structure Counted (report : Report) : Prop where
  matched : report.matched = report.assertions.countP (·.resolution = .matched)
  minted : report.minted = report.assertions.countP (·.resolution = .minted)

theorem Counted.record {report : Report} (counted : Counted report) (entity : Term)
    (outcome : Except IdentityError Assertion) : Counted (report.record entity outcome) := by
  obtain ⟨matched, minted⟩ := counted
  rcases outcome with e | ⟨_, _, _, _ | _⟩
  · exact ⟨matched, minted⟩
  all_goals
    constructor <;> simp [Report.record, List.countP_append, matched, minted]

variable {report : Report} {cls : String} {s : State σ}

/-- The next call is made in the state that a call leaves, whatever its outcome is. -/
theorem resolveEach_cons (entity : Term) (label : String) (rest : List (Term × String))
    (report : Report) (s : State σ) :
    resolveEach settings source cls ((entity, label) :: rest) report s =
      let call : Call σ := ⟨cls, entity, label, s⟩
      resolveEach settings source cls rest (report.record entity (call.outcome settings source))
        (call.after settings source) := rfl

theorem resolveEach_failed (entities : List (Term × String)) (report : Report) (s : State σ) :
    (resolveEach settings source cls entities report s).1.failed = report.failed ++
      (eachCall settings source cls entities s).filterMap (·.failed? settings source) := by
  induction entities generalizing report s with
  | nil => simp [resolveEach, eachCall]
  | cons pair rest ih =>
    obtain ⟨entity, label⟩ := pair
    let call : Call σ := ⟨cls, entity, label, s⟩
    have first : (report.record entity (call.outcome settings source)).failed =
        report.failed ++ (call.failed? settings source).toList := record_failed report call
    rw [resolveEach_cons, eachCall, List.filterMap_cons]
    dsimp only
    rw [ih, first, List.append_assoc]
    cases call.failed? settings source <;> rfl

theorem resolveEach_counts (entities : List (Term × String)) (report : Report) (s : State σ) :
    (resolveEach settings source cls entities report s).1.examined = report.examined ∧
      (resolveEach settings source cls entities report s).1.skipped = report.skipped := by
  induction entities generalizing report s with
  | nil => exact ⟨rfl, rfl⟩
  | cons pair rest ih =>
    obtain ⟨examined, skipped⟩ := record_counts report pair.1
      (Call.outcome settings source ⟨cls, pair.1, pair.2, s⟩)
    rw [resolveEach_cons, (ih _ _).1, (ih _ _).2]
    exact ⟨examined, skipped⟩

theorem counted_resolveEach (entities : List (Term × String)) (counted : Counted report)
    (s : State σ) : Counted (resolveEach settings source cls entities report s).1 := by
  induction entities generalizing report s with
  | nil => exact counted
  | cons pair rest ih => exact ih (counted.record pair.1 _) _

/-- Each entity of the list is called for, in order. -/
theorem asked_eachCall (entities : List (Term × String)) (s : State σ) :
    (eachCall settings source cls entities s).map
      (fun call => (call.cls, call.entity, call.label)) = entities.map (cls, ·) := by
  induction entities generalizing s with
  | nil => rfl
  | cons pair rest ih => exact congrArg _ (ih _)

theorem Turn.asked (settings : Settings) (source : CandidateSource σ) (turn : Turn σ) :
    (turn.calls settings source).map (fun call => (call.cls, call.entity, call.label)) =
      (labelledEntities settings turn.before.graph turn.cls).map (turn.cls, ·) :=
  asked_eachCall _ _

theorem Turn.length_calls (settings : Settings) (source : CandidateSource σ) (turn : Turn σ) :
    (turn.calls settings source).length =
      (labelledEntities settings turn.before.graph turn.cls).length := by
  simpa using congrArg List.length (turn.asked settings source)

/-- Of the entities that are examined, each is without a usable label or is called for. -/
theorem Turn.length_entities (settings : Settings) (source : CandidateSource σ) (turn : Turn σ) :
    (turn.entities settings).length =
      (turn.unlabelled settings).length + (turn.calls settings source).length := by
  rw [turn.length_calls]
  unfold Turn.unlabelled labelledEntities
  rw [List.length_mergeSort]
  change _ = _ + ((turn.entities settings).filterMap _).length
  generalize turn.entities settings = entities
  induction entities with
  | nil => rfl
  | cons entity rest ih =>
    rw [List.filter_cons, List.filterMap_cons]
    cases usableLabel? settings turn.before.graph entity <;> simp [ih] <;> omega

/-- The turn of a class adds to the report what becomes of its entities. -/
theorem Accounts.turn {turns : List (Turn σ)} (accounts : Accounts settings source turns report)
    (turn : Turn σ) : Accounts settings source (turns ++ [turn])
      (resolveClass settings source report turn.before turn.cls).1 := by
  have opened : resolveClass settings source report turn.before turn.cls =
      resolveEach settings source turn.cls (labelledEntities settings turn.before.graph turn.cls)
        (turn.opened settings report) turn.before := rfl
  have counted : Counted (turn.opened settings report) := ⟨accounts.matched, accounts.minted⟩
  have whole := turn.length_entities settings source
  have calls := turn.length_calls settings source
  rw [opened]
  refine ⟨?_, ?_, ?_, ?_, (counted_resolveEach _ counted _).matched,
    (counted_resolveEach _ counted _).minted⟩
  · rw [(resolveEach_counts _ _ _).1]
    simp [Turn.opened, accounts.examined]
  · rw [(resolveEach_counts _ _ _).2]
    simp only [Turn.opened, accounts.skipped, List.flatMap_append, List.length_append,
      List.flatMap_cons, List.flatMap_nil, List.append_nil]
    omega
  · rw [resolveEach_assertions, map_eachCall]
    simp [Turn.opened, accounts.assertions, Turn.calls, Call.assertion?]
  · rw [resolveEach_failed]
    simp [Turn.opened, accounts.failed, Turn.calls]

/-- The turns of several classes add to the report what becomes of their entities. -/
theorem Accounts.pass {turns : List (Turn σ)} (accounts : Accounts settings source turns report)
    (classes : List String) (s : State σ) :
    Accounts settings source (turns ++ turnsOf settings source classes s)
      (classes.foldl (fun (report, s) cls => resolveClass settings source report s cls)
        (report, s)).1 := by
  induction classes generalizing turns report s with
  | nil => simpa [turnsOf] using accounts
  | cons cls rest ih =>
    have later := ih (accounts.turn ⟨cls, s⟩) (resolveClass settings source report s cls).2
    rw [turnsOf, resolveClass_state {} report, List.foldl_cons]
    simpa using later

theorem length_calls (settings : Settings) (source : CandidateSource σ) (calls : List (Call σ)) :
    calls.length = (calls.filterMap (·.assertion? settings source)).length +
      (calls.filterMap (·.failed? settings source)).length := by
  induction calls with
  | nil => rfl
  | cons call rest ih =>
    rw [List.filterMap_cons, List.filterMap_cons, Call.assertion?, Call.failed?]
    cases call.outcome settings source <;> simp [Except.toOption, ih] <;> omega

/-- Each entity that is examined is skipped, gets a name or fails. -/
theorem Accounts.examined_eq {turns : List (Turn σ)}
    (accounts : Accounts settings source turns report) :
    report.examined = report.skipped + report.matched + report.minted + report.failed.length ∧
      report.assertions.length = report.matched + report.minted := by
  have named : report.assertions.length = report.matched + report.minted := by
    have other (a : Assertion) : decide (a.resolution = .minted) =
        decide ¬ decide (a.resolution = .matched) = true := by cases a.resolution <;> rfl
    rw [accounts.matched, accounts.minted, funext other]
    exact List.length_eq_countP_add_countP _
  have whole : report.examined = report.skipped +
      (turns.flatMap (·.calls settings source)).length := by
    rw [accounts.examined, accounts.skipped]
    clear accounts
    induction turns with
    | nil => rfl
    | cons turn rest ih =>
      have := turn.length_entities settings source
      simp only [List.flatMap_cons, List.length_append]
      omega
  have outcomes := length_calls settings source
    (turns.flatMap (·.calls settings source))
  rw [← accounts.assertions, ← accounts.failed] at outcomes
  exact ⟨by omega, named⟩

end Reports

/-- A pass over proper classes ends, whatever lookups fail: the calls for all entities with usable
labels are made one after another, class by class, and the report accounts for each entity that was
examined. A call that fails leaves the graph and the minted names as they were. -/
theorem report_accounts_for_entities (settings : Settings) (source : CandidateSource σ)
    (classes : List String) (s : State σ) :
    (∀ (call : Call σ) (e : IdentityError), call.outcome settings source = .error e →
      (call.after settings source).graph = call.before.graph ∧
      (call.after settings source).index.minted = call.before.index.minted) ∧
    match deduplicate settings source classes s with
    | (.error e, t) => (∃ cls ∈ classes, isClassName cls = false ∧ e = .invalidClass cls) ∧ t = s
    | (.ok report, t) =>
      let turns := turnsOf settings source classes s
      turns.map (·.cls) = classes ∧
      (∀ turn ∈ turns, (turn.calls settings source).map
        (fun call => (call.cls, call.entity, call.label)) =
          (labelledEntities settings turn.before.graph turn.cls).map (turn.cls, ·)) ∧
      (∃ u, Successive settings source s (turns.flatMap (·.calls settings source)) u ∧
        t = { u with graph := u.graph.retainUnique }) ∧
      Accounts settings source turns report ∧
      report.examined = report.skipped + report.matched + report.minted + report.failed.length ∧
      report.assertions.length = report.matched + report.minted := by
  refine ⟨fun call e failed => Call.kept_of_error failed, ?_⟩
  unfold deduplicate
  cases found : classes.find? fun cls => !isClassName cls with
  | some cls =>
    have invalid := List.find?_some found
    exact ⟨⟨cls, List.mem_of_find?_eq_some found, by simpa using invalid, rfl⟩, rfl⟩
  | none =>
    have none : Accounts settings source [] ({} : Report) := ⟨rfl, rfl, rfl, rfl, rfl, rfl⟩
    have accounts := none.pass classes s
    have successive : Successive settings source s _ _ := successive_passCalls classes {} s
    rw [← calls_turnsOf] at successive
    exact ⟨map_turnsOf classes s, fun turn _ => turn.asked settings source, ⟨_, successive, rfl⟩,
      accounts, accounts.examined_eq⟩

end CatalogGraph.Identity
