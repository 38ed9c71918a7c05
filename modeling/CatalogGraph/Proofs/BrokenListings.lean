import CatalogGraph.Proofs.CompleteListings
import CatalogGraph.Proofs.TokenRounds

/-!
Listings that break off: whichever request fails, and whenever work is to stop, the error carries
the state after exactly the pages that were received.
-/
namespace CatalogGraph.Harvest
variable {σ : Type}

/-- The state of a harvest that has received pages and is about to ask for the next one. -/
def stateAfter (pages : List ListingPage) : HarvestState where
  identifiers := identifiersOf pages
  token := lastToken? pages
  total := declaredTotal? pages
  pages := pages.length
  phase := if pages.length ≤ 1 then .listing else .resuming

theorem took_stateAfter (pages : List ListingPage) : Took (stateAfter pages) pages :=
  ⟨rfl, rfl, rfl, rfl, rfl⟩

theorem Took.eq_stateAfter {state : HarvestState} {pages : List ListingPage}
    (took : Took state pages) (phase : state.phase = (stateAfter pages).phase) :
    state = stateAfter pages := by
  obtain ⟨identifiers, seen, token, total, count, stands⟩ := state
  obtain ⟨rfl, known, rfl, rfl, rfl⟩ := took
  obtain rfl : seen = (identifiersOf pages).reverse := known
  obtain rfl : stands = (stateAfter pages).phase := phase
  rfl

@[simp] theorem absorb_phase (state : HarvestState) (page : ListingPage) :
    (state.absorb page).phase = state.phase := by
  have added (identifiers : List String) :
      (identifiers.foldl HarvestState.add state).phase = state.phase := by
    induction identifiers generalizing state with
    | nil => rfl
    | cons identifier rest ih =>
      rw [List.foldl_cons, ih, HarvestState.add]
      split <;> rfl
  exact added page.identifiers

theorem stateAfter_first (page : ListingPage) :
    ({ phase := .listing } : HarvestState).absorb page = stateAfter [page] :=
  Took.eq_stateAfter ((took_nil .listing).absorb page) (absorb_phase _ _)

theorem stateAfter_next {pages : List ListingPage} (some : pages ≠ []) (page : ListingPage) :
    { stateAfter pages with phase := .resuming }.absorb page = stateAfter (pages ++ [page]) := by
  refine Took.eq_stateAfter (((took_stateAfter pages).phase .resuming).absorb page) ?_
  have positive := List.length_pos_iff.mpr some
  have resumed : (stateAfter (pages ++ [page])).phase = .resuming := by
    simp only [stateAfter, List.length_append, List.length_singleton]
    exact if_neg (by omega)
  rw [absorb_phase, resumed]

/-- How a harvest fails, and what was asked and answered up to there: the first request or a later
one fails, or work is to stop behind some pages, or no more pages are granted. -/
inductive Breaks (repository : Repository σ) (options : HarvestOptions) (s : σ) :
    HarvestError → Log → σ → Prop
  | unlisted {cause : HarvestError} {t : σ}
      (given : repository.list (.first options.metadataPrefix options.set) s = (.error cause, t)) :
      Breaks repository options s (.page 1 (stateAfter []) cause)
        [(.first options.metadataPrefix options.set, .error cause)] t
  | refused {log : Log} {pages : List ListingPage} {t u : σ} {token : String}
      {cause : HarvestError} (listed : Listed repository options s log pages t)
      (more : ¬ Ends pages) (asked : lastToken? pages = some token)
      (going : repository.isCancelled t = false)
      (given : repository.list (.resume token) t = (.error cause, u)) :
      Breaks repository options s
        (.page (pages.length + 1) { stateAfter pages with phase := .resuming } cause)
        (log ++ [(.resume token, .error cause)]) u
  | cancelled {log : Log} {pages : List ListingPage} {t : σ}
      (listed : Listed repository options s log pages t) (more : ¬ Ends pages)
      (stopped : repository.isCancelled t = true) :
      Breaks repository options s (.cancelled (stateAfter pages)) log t
  | unended {log : Log} {pages : List ListingPage} {t : σ}
      (listed : Listed repository options s log pages t)
      (all : pages.length = repository.pages + 1) :
      Breaks repository options s (.tooManyPages (stateAfter pages)) log t

section Runs
variable {repository : Repository σ} {options : HarvestOptions} {choose : Chooser} {s t : σ}
  {log : Log} {e : HarvestError}

/-- Behind pages that do not end it a listing asks with the token of the last one. -/
theorem asks_of_nextToken? {pages : List ListingPage} {token : String}
    (next : (stateAfter pages).nextToken? = some token) (moving : ¬ Repeats pages) :
    lastToken? pages = some token ∧ ¬ Ends pages := by
  obtain ⟨asked, below⟩ := (took_stateAfter pages).nextToken?_eq_some_iff.mp next
  refine ⟨asked, ?_⟩
  rintro (last | total | again)
  · simp [asked] at last
  · exact below total
  · exact moving again

/-- From page to page the state is the one after the pages that were received. -/
theorem resumeListing_breaks {left : Nat} {before : Log} {pages : List ListingPage} {u : σ}
    (listed : Listed repository options s before pages u) (moving : ¬ Repeats pages)
    (room : pages.length + left = repository.pages + 1)
    (failed : resumeListing repository.logged left (stateAfter pages) (before, u) =
      (.error e, log, t)) : Breaks repository options s e log t := by
  induction left generalizing before pages u with
  | zero =>
    cases failed
    exact .unended listed room
  | succ left ih =>
    cases next : (stateAfter pages).nextToken? with
    | none =>
      rw [resumeListing_done next] at failed
      cases failed
    | some token =>
      obtain ⟨asked, more⟩ := asks_of_nextToken? next moving
      cases stopped : repository.isCancelled u with
      | true =>
        have stopped' : repository.logged.isCancelled (before, u) = true := stopped
        rw [resumeListing_cancelled next stopped'] at failed
        cases failed
        exact .cancelled listed more stopped
      | false =>
        have going : repository.logged.isCancelled (before, u) = false := stopped
        rcases given : repository.list (.resume token) u with ⟨cause | page, v⟩
        · rw [resumeListing_refused next going (logged_list given before)] at failed
          cases failed
          exact .refused listed more asked stopped given
        · have stuck_iff := (took_stateAfter pages).isStuck_iff asked page
          cases stuck : isStuck (stateAfter pages)
              ({ stateAfter pages with phase := .resuming }.absorb page) token with
          | true =>
            rw [resumeListing_stuck next going (logged_list given before) stuck] at failed
            cases failed
          | false =>
            rw [resumeListing_next next going (logged_list given before) stuck,
              stateAfter_next listed.served.ne_nil] at failed
            refine ih (listed.next more asked stopped given) ?_ ?_ failed
            · intro again
              simp [stuck_iff.mpr again] at stuck
            · simp only [List.length_append, List.length_singleton]
              omega

theorem harvest_breaks
    (failed : harvest repository.logged options choose ([], s) = (.error e, log, t)) :
    Breaks repository options s e log t := by
  rcases given : repository.list (.first options.metadataPrefix options.set) s with
    ⟨cause | page, u⟩
  · rw [harvest_refused (logged_list given [])] at failed
    cases failed
    exact .unlisted given
  · rw [harvest_listed (logged_list given []), stateAfter_first] at failed
    rcases resumed : resumeListing repository.logged repository.logged.pages (stateAfter [page])
      ([(.first options.metadataPrefix options.set, .ok page)], u) with ⟨cause | state, log', v⟩
    · have resumed' := resumed
      rw [List.nil_append, resumed] at failed
      cases failed
      exact resumeListing_breaks (listed_first given) (not_repeats_singleton page)
        (Nat.add_comm 1 repository.pages) resumed'
    · rw [List.nil_append, resumed] at failed
      cases failed

theorem harvest_eq_logged (repository : Repository σ) (options : HarvestOptions)
    (choose : Chooser) (s : σ) : harvest repository.logged options choose ([], s) =
      ((harvest repository options choose s).1, exchanges repository options choose s,
        (harvest repository options choose s).2) := by
  obtain ⟨result, state⟩ := harvest_logged repository options choose [] s
  exact Prod.ext result (Prod.ext rfl state)

/-- A harvest that fails has asked for the pages that its error carries. -/
theorem breaks_of_error (failed : (harvest repository options choose s).1 = .error e) :
    Breaks repository options s e (exchanges repository options choose s)
      (harvest repository options choose s).2 := by
  have logged := harvest_eq_logged repository options choose s
  rw [failed] at logged
  exact harvest_breaks logged

/-- The pages among the answers to requests. -/
def pagesOf (log : Log) : List ListingPage := log.filterMap (·.2.toOption)

theorem pagesOf_of_answers {pages : List ListingPage} (answers : log.map (·.2) = pages.map .ok) :
    pagesOf log = pages := by
  have same : pagesOf log = (log.map (·.2)).filterMap Except.toOption := by
    simp [pagesOf, List.filterMap_map]
  rw [same, answers, List.filterMap_map]
  exact List.filterMap_some

theorem pagesOf_concat_error (log : Log) (request : ListRequest) (cause : HarvestError) :
    pagesOf (log ++ [(request, .error cause)]) = pagesOf log := by
  simp [pagesOf, Except.toOption]

/-- Every error that ends a harvest carries the identifiers of the pages received. -/
theorem Breaks.keeps (breaks : Breaks repository options s e log t) :
    ∃ reached, e.reached? = some reached ∧ reached.identifiers = identifiersOf (pagesOf log) ∧
      (e = .tooManyPages reached → log.length = repository.pages + 1) := by
  cases breaks with
  | unlisted => exact ⟨_, rfl, rfl, fun other => by cases other⟩
  | refused listed =>
    refine ⟨_, rfl, ?_, fun other => by cases other⟩
    rw [pagesOf_concat_error, pagesOf_of_answers listed.answers]
    rfl
  | cancelled listed =>
    refine ⟨_, rfl, ?_, fun other => by cases other⟩
    rw [pagesOf_of_answers listed.answers]
    rfl
  | unended listed all =>
    refine ⟨_, rfl, ?_, fun _ => listed.length_eq.trans all⟩
    rw [pagesOf_of_answers listed.answers]
    rfl

theorem not_error_of_answers {pages : List ListingPage} (answers : log.map (·.2) = pages.map .ok)
    {k : Nat} {request : ListRequest} {cause : HarvestError} :
    log[k]? ≠ some (request, .error cause) := by
  intro failed
  have answer : (log.map (·.2))[k]? = some (.error cause) := by simp [failed]
  simp [answers] at answer

/-- Only the last request of a harvest fails, and the error tells what was received before. -/
theorem Breaks.request_failed (breaks : Breaks repository options s e log t) {k : Nat}
    {request : ListRequest} {cause : HarvestError} (failed : log[k]? = some (request, .error cause)) :
    ∃ pages : List ListingPage, pages.length = k ∧
      log.map (·.2) = pages.map .ok ++ [.error cause] ∧
      e = .page (k + 1)
        { stateAfter pages with phase := if k = 0 then .listing else .resuming } cause := by
  cases breaks with
  | unlisted =>
    cases k with
    | zero =>
      cases failed
      exact ⟨[], rfl, rfl, rfl⟩
    | succ k => simp at failed
  | @refused before pages _ _ _ _ listed =>
    have length := listed.length_eq
    rcases Nat.lt_trichotomy k before.length with earlier | rfl | later
    · rw [List.getElem?_append_left earlier] at failed
      exact absurd failed (not_error_of_answers listed.answers)
    · rw [List.getElem?_concat_length] at failed
      cases failed
      have positive := List.length_pos_iff.mpr listed.served.ne_nil
      refine ⟨pages, length.symm, by simp [listed.answers], ?_⟩
      rw [if_neg (by omega), length]
    · rw [List.getElem?_eq_none (by simpa using Nat.succ_le_of_lt later)] at failed
      cases failed
  | cancelled listed => exact absurd failed (not_error_of_answers listed.answers)
  | unended listed => exact absurd failed (not_error_of_answers listed.answers)

/-- A request fails only in a harvest that fails. -/
theorem error_of_request_failed {k : Nat} {request : ListRequest} {cause : HarvestError}
    (failed : (exchanges repository options choose s)[k]? = some (request, .error cause)) :
    ∃ e, (harvest repository options choose s).1 = .error e := by
  rcases result : (harvest repository options choose s).1 with e | state
  · exact ⟨e, rfl⟩
  · have logged := harvest_eq_logged repository options choose s
    rw [result] at logged
    obtain ⟨_, _, _, listed, _⟩ := listed_of_harvest logged
    exact absurd failed (not_error_of_answers listed.answers)

/-- Where work is to stop, no more than the pages up to there can be received. -/
theorem Serves.eq_of_stopped {request : ListRequest} {pages others : List ListingPage} {s t u : σ}
    (serves : Serves repository request s pages t) (stopped : repository.isCancelled t = true)
    (serves' : Serves repository request s others u) (stopped' : repository.isCancelled u = true) :
    pages = others ∧ t = u := by
  induction serves generalizing others with
  | last given =>
    cases serves' with
    | last given' =>
      cases given.symm.trans given'
      exact ⟨rfl, rfl⟩
    | next given' _ going =>
      cases given.symm.trans given'
      rw [stopped] at going
      cases going
  | next given asked going _ ih =>
    cases serves' with
    | last given' =>
      cases given.symm.trans given'
      rw [stopped'] at going
      cases going
    | next given' asked' _ later =>
      cases given.symm.trans given'
      cases asked.symm.trans asked'
      obtain ⟨rfl, rfl⟩ := ih stopped later
      exact ⟨rfl, rfl⟩

/-- Behind pages that do not end the listing a harvest sees that work is to stop. -/
theorem cancelled_of_serves {pages : List ListingPage}
    (serves : Serves repository (.first options.metadataPrefix options.set) s pages t)
    (open_ : ∀ k, 0 < k → k ≤ pages.length → ¬ Ends (pages.take k))
    (granted : pages.length ≤ repository.pages) (stopped : repository.isCancelled t = true) :
    ∃ reached, harvest repository options choose s = (.error (.cancelled reached), t) := by
  have more : ¬ Ends pages := by
    have whole := open_ pages.length (List.length_pos_iff.mpr serves.ne_nil) le_rfl
    rwa [List.take_length] at whole
  obtain ⟨final, took, onward⟩ := harvest_serves choose serves
    (fun k positive short => open_ k positive short.le) (fun again => more (.inr (.inr again)))
  obtain ⟨left, room⟩ := Nat.exists_eq_add_of_le granted
  have run : harvest repository options choose s =
      ((resumeListing repository (left + 1) final t).1.map (finish options choose),
        (resumeListing repository (left + 1) final t).2) :=
    onward repository.pages (left + 1) (by omega)
  cases next : final.nextToken? with
  | none =>
    rcases took.nextToken?_eq_none_iff.mp next with last | total
    · exact absurd (.inl last) more
    · exact absurd (.inr (.inl total)) more
  | some token =>
    rw [resumeListing_cancelled next stopped] at run
    exact ⟨final, run⟩

end Runs

/-- A harvest whose request fails carries the number of the request, the cause, and the state made
of the pages before it. One that sees that work is to stop has received some page, carries the state
after the pages, and asks for nothing more; it sees that behind any pages that do not end the
listing. So the identifiers that an error carries are those of the pages received, each once. -/
theorem failures_keep_received_pages (repository : Repository σ) (options : HarvestOptions)
    (choose : Chooser) (s : σ) :
    let log := exchanges repository options choose s
    let first := ListRequest.first options.metadataPrefix options.set
    (∀ k request cause, log[k]? = some (request, .error cause) →
      ∃ pages : List ListingPage, pages.length = k ∧
        log.map (·.2) = pages.map .ok ++ [.error cause] ∧
        (harvest repository options choose s).1 = .error (.page (k + 1)
          { identifiers := identifiersOf pages, token := lastToken? pages
            total := declaredTotal? pages, pages := k
            phase := if k = 0 then .listing else .resuming } cause)) ∧
    (∀ reached t, harvest repository options choose s = (.error (.cancelled reached), t) →
      ∃ pages : List ListingPage, pages ≠ [] ∧ log.map (·.2) = pages.map .ok ∧
        reached = stateAfter pages ∧ Serves repository first s pages t ∧
        repository.isCancelled t = true) ∧
    (∀ pages t, Serves repository first s pages t →
      (∀ k, 0 < k → k ≤ pages.length → ¬ Ends (pages.take k)) →
      pages.length ≤ repository.pages → repository.isCancelled t = true →
      harvest repository options choose s = (.error (.cancelled (stateAfter pages)), t) ∧
        log.map (·.2) = pages.map .ok) ∧
    ∀ e, (harvest repository options choose s).1 = .error e →
      ∃ reached, e.reached? = some reached ∧ reached.identifiers = identifiersOf (pagesOf log) ∧
        (e = .tooManyPages reached → log.length = repository.pages + 1) := by
  intro log first
  have stops {reached : HarvestState} {t : σ}
      (failed : harvest repository options choose s = (.error (.cancelled reached), t)) :
      ∃ pages : List ListingPage, pages ≠ [] ∧ log.map (·.2) = pages.map .ok ∧
        reached = stateAfter pages ∧ Serves repository first s pages t ∧
        repository.isCancelled t = true := by
    have breaks : Breaks repository options s (.cancelled reached) log _ :=
      breaks_of_error (congrArg Prod.fst failed)
    rw [failed] at breaks
    cases breaks with
    | cancelled listed _ stopped =>
      exact ⟨_, listed.served.ne_nil, listed.answers, rfl, listed.served, stopped⟩
  refine ⟨?_, fun reached t => stops, ?_, ?_⟩
  · intro k request cause failed
    obtain ⟨e, result⟩ := error_of_request_failed failed
    obtain ⟨pages, rfl, answers, rfl⟩ := (breaks_of_error result).request_failed failed
    exact ⟨pages, rfl, answers, result⟩
  · intro pages t serves open_ granted stopped
    obtain ⟨reached, failed⟩ : ∃ reached,
        harvest repository options choose s = (.error (.cancelled reached), t) :=
      cancelled_of_serves serves open_ granted stopped
    obtain ⟨others, _, answers, rfl, serves', stopped'⟩ := stops failed
    obtain ⟨rfl, -⟩ := serves.eq_of_stopped stopped serves' stopped'
    exact ⟨failed, answers⟩
  · exact fun e result => (breaks_of_error result).keeps

/-- A repository that gives answers in order, and at which work is to stop once there are none. -/
def frail : Repository (List (Except HarvestError ListingPage)) where
  list _ answers := (answers.headD (.ok {}), answers.drop 1)
  record _ _ answers := (.ok .none, answers)
  isCancelled answers := answers.isEmpty

theorem serves_frail : Serves frail (.first "mods" none)
    [.ok overlappingPages[0], .ok overlappingPages[1]] [overlappingPages[0], overlappingPages[1]]
    [] :=
  .next rfl rfl rfl (.last rfl)

/-- The second request fails, or work is to stop behind the second page. -/
theorem frail_keeps_received_pages :
    (harvest frail {} (fun _ _ _ => [])
      [.ok overlappingPages[0], .error (.protocol "badResumptionToken" "")]).1 = .error (.page 2
        { identifiers := ["oai:1", "oai:2"]
          token := "a"
          pages := 1
          phase := .resuming } (.protocol "badResumptionToken" "")) ∧
    harvest frail {} (fun _ _ _ => []) [.ok overlappingPages[0], .ok overlappingPages[1]] =
      (.error (.cancelled
        { identifiers := ["oai:1", "oai:2", "oai:3"]
          token := "b"
          total := some 9
          pages := 2
          phase := .resuming }), []) := by
  refine ⟨?_, ?_⟩
  · obtain ⟨failed, -⟩ := failures_keep_received_pages frail {} (fun _ _ _ => [])
      [.ok overlappingPages[0], .error (.protocol "badResumptionToken" "")]
    obtain ⟨pages, _, answers, result⟩ := failed 1 (.resume "a") _ rfl
    have received : pagesOf [(.resume "a", .ok overlappingPages[0])] = pages :=
      pagesOf_of_answers (List.append_inj' answers rfl).1
    rw [result, ← received]
    rfl
  · obtain ⟨-, -, stopped, -⟩ := failures_keep_received_pages frail {} (fun _ _ _ => [])
      [.ok overlappingPages[0], .ok overlappingPages[1]]
    refine (stopped _ _ serves_frail ?_ (by decide) rfl).1
    intro k positive short
    obtain rfl | rfl : k = 1 ∨ k = 2 := by
      simp only [List.length_cons, List.length_nil] at short
      omega
    · rintro (none | ends)
      · cases none
      · exact (not_or.mpr (overlappingPages_open (k := 1) (by decide) (by decide))) ends
    · rintro (none | ends)
      · cases none
      · exact (not_or.mpr (overlappingPages_open (k := 2) (by decide) (by decide))) ends

end CatalogGraph.Harvest
