import CatalogGraph.Proofs.ListingPages
import Mathlib.Combinatorics.Pigeonhole

/-!
Tokens that come round: a listing of a repository with finitely many tokens, whose answers depend
on the request only, makes few requests, or comes round to a token that it had and never ends.
-/
namespace CatalogGraph.Harvest
variable {σ : Type}

/-- The requests for pages that a harvest makes, each with its answer. -/
def exchanges (repository : Repository σ) (options : HarvestOptions) (choose : Chooser) (s : σ) :
    Log :=
  (harvest repository.logged options choose ([], s)).2.1

/-- The tokens of two or more pages lead back to where they began, and no page ends the listing
until they have come round twice. -/
def GoesRound (repository : Repository σ) (options : HarvestOptions) (s : σ) : Prop :=
  ∃ (before round : List ListingPage) (t : σ), before ≠ [] ∧ 2 ≤ round.length ∧
    lastToken? (before ++ round) = lastToken? before ∧
    Serves repository (.first options.metadataPrefix options.set) s (before ++ round ++ round) t ∧
    ∀ k, 0 < k → k ≤ (before ++ round ++ round).length →
      ¬ Ends ((before ++ round ++ round).take k)

/-- A repository gives a request the same answer at any time. -/
def AnswersAlike (repository : Repository σ) : Prop :=
  ∀ request s t, (repository.list request s).1 = (repository.list request t).1

/-- The tokens of all pages that a repository gives are among these. -/
def HandsOut (repository : Repository σ) (tokens : List String) : Prop :=
  ∀ request s page token,
    (repository.list request s).1 = .ok page → page.token = some token → token ∈ tokens

section Standing

/-- Two listings have the same identifiers, total and token, and so the same way to go on. -/
structure Matches (pages others : List ListingPage) : Prop where
  identifiers : identifiersOf pages = identifiersOf others
  total : declaredTotal? pages = declaredTotal? others
  token : lastToken? pages = lastToken? others

variable {pages others : List ListingPage}

theorem Matches.refl (pages : List ListingPage) : Matches pages pages :=
  ⟨rfl, rfl, rfl⟩

theorem Matches.trans {further : List ListingPage} (first : Matches pages others)
    (second : Matches others further) : Matches pages further :=
  ⟨first.identifiers.trans second.identifiers, first.total.trans second.total,
    first.token.trans second.token⟩

theorem Matches.mem_iff (same : Matches pages others) (identifier : String) :
    identifier ∈ pages.flatMap (·.identifiers) ↔ identifier ∈ others.flatMap (·.identifiers) := by
  have members := congrArg (identifier ∈ ·) same.identifiers
  simpa [identifiersOf] using members

theorem Matches.concat (same : Matches pages others) (page : ListingPage) :
    Matches (pages ++ [page]) (others ++ [page]) where
  identifiers := by
    have fresh : page.identifiers.removeAll (pages.flatMap (·.identifiers)) =
        page.identifiers.removeAll (others.flatMap (·.identifiers)) := by
      unfold List.removeAll
      apply List.filter_congr
      intro identifier _
      rw [List.elem_eq_mem, List.elem_eq_mem, decide_eq_decide.mpr (same.mem_iff identifier)]
    have before := same.identifiers
    unfold identifiersOf at before ⊢
    rw [List.flatMap_append, List.flatMap_append, List.flatMap_singleton, List.eraseDups_append,
      List.eraseDups_append, before, fresh]
  total := by rw [declaredTotal?_concat, declaredTotal?_concat, same.total]
  token := by rw [lastToken?_concat, lastToken?_concat]

theorem Matches.reachesTotal_iff (same : Matches pages others) :
    ReachesTotal pages ↔ ReachesTotal others := by
  unfold ReachesTotal
  rw [same.identifiers, same.total]

theorem Matches.repeats_concat_iff (same : Matches pages others) (page : ListingPage) :
    Repeats (pages ++ [page]) ↔ Repeats (others ++ [page]) := by
  have known : page.identifiers ⊆ pages.flatMap (·.identifiers) ↔
      page.identifiers ⊆ others.flatMap (·.identifiers) :=
    forall₂_congr fun identifier _ => same.mem_iff identifier
  rw [repeats_concat, repeats_concat, same.token, known]

theorem declaredTotal?_append (pages others : List ListingPage) :
    declaredTotal? (pages ++ others) = (declaredTotal? others).or (declaredTotal? pages) := by
  rw [declaredTotal?, List.reverse_append, List.findSome?_append]
  rfl

theorem lastToken?_append (pages : List ListingPage) (more : others ≠ []) :
    lastToken? (pages ++ others) = lastToken? others := by
  rw [lastToken?, List.getLast?_append_of_ne_nil _ more]
  rfl

/-- To come round again brings nothing. -/
theorem matches_of_round (before : List ListingPage) {round : List ListingPage}
    (more : round ≠ []) : Matches (before ++ round ++ round) (before ++ round) where
  identifiers := by
    have known : (round.flatMap (·.identifiers)).removeAll
        ((before ++ round).flatMap (·.identifiers)) = [] := by
      simp only [List.removeAll, List.filter_eq_nil_iff]
      intro identifier listed
      simp [List.flatMap_append, listed]
    rw [identifiersOf, List.flatMap_append, List.eraseDups_append, known, List.eraseDups_nil,
      List.append_nil]
    rfl
  total := by
    rw [declaredTotal?_append, declaredTotal?_append]
    cases declaredTotal? round <;> rfl
  token := by rw [lastToken?_append _ more, lastToken?_append _ more]

end Standing

section Answers
variable {repository : Repository σ} {request : ListRequest} {s t : σ} {pages : List ListingPage}

/-- Where two tokens of a listing are the same, the pages behind them are. -/
theorem Serves.take_matches (alike : AnswersAlike repository)
    (serves : Serves repository request s pages t) {i j m : Nat} (positive : 0 < i) (later : i ≤ j)
    (same : lastToken? (pages.take i) = lastToken? (pages.take j))
    (short : j + m ≤ pages.length) :
    (pages.drop i).take m = (pages.drop j).take m ∧
      lastToken? (pages.take (i + m)) = lastToken? (pages.take (j + m)) := by
  induction m with
  | zero => exact ⟨rfl, same⟩
  | succ m ih =>
    obtain ⟨before, asked⟩ := ih (by omega)
    have first : i + m < pages.length := by omega
    have second : j + m < pages.length := by omega
    obtain ⟨token, u, token_eq, given⟩ := serves.answered (by omega) first
    obtain ⟨token', u', token_eq', given'⟩ := serves.answered (by omega) second
    obtain rfl : token = token' := by
      rw [← Option.some_inj, ← token_eq, ← token_eq', asked]
    have page : pages[i + m] = pages[j + m] := by
      have answers := alike (.resume token) u u'
      rw [given, given'] at answers
      exact Except.ok.inj answers
    refine ⟨?_, ?_⟩
    · rw [List.take_succ_eq_append_getElem (by simp; omega),
        List.take_succ_eq_append_getElem (by simp; omega), before, List.getElem_drop,
        List.getElem_drop, page]
    · rw [← Nat.add_assoc, ← Nat.add_assoc, lastToken?_take_succ first,
        lastToken?_take_succ second, page]

end Answers

/-- A page that leads to itself brings nothing the second time. -/
theorem repeats_of_twice {page : ListingPage} {token : String} (given : page.token = some token)
    (before : List ListingPage) : Repeats (before ++ [page] ++ [page]) :=
  repeats_concat.mpr ⟨token, (lastToken?_concat before page).trans given, given, by simp⟩

section Bounds
variable {repository : Repository σ} {options : HarvestOptions} {s t : σ} {tokens : List String}
  {pages : List ListingPage}

/-- Among more pages than there are tokens, two have the same. -/
theorem Serves.token_again (handed : HandsOut repository tokens) {request : ListRequest}
    (serves : Serves repository request s pages t)
    (open_ : ∀ k, 0 < k → k ≤ tokens.length + 1 → lastToken? (pages.take k) ≠ none)
    (more : tokens.length + 1 ≤ pages.length) :
    ∃ i j, 0 < i ∧ i < j ∧ j ≤ tokens.length + 1 ∧
      lastToken? (pages.take i) = lastToken? (pages.take j) := by
  have few : (tokens.map some).toFinset.card < (Finset.range (tokens.length + 1)).card := by
    have bound := (tokens.map some).toFinset_card_le
    rw [Finset.card_range]
    simpa using Nat.lt_succ_of_le bound
  have maps : Set.MapsTo (fun k => lastToken? (pages.take (k + 1)))
      (Finset.range (tokens.length + 1)) (tokens.map some).toFinset := by
    intro k below
    have below : k < tokens.length + 1 := by simpa using below
    obtain ⟨token, asked⟩ :=
      Option.ne_none_iff_exists'.mp (open_ (k + 1) (Nat.succ_pos k) (Nat.succ_le_of_lt below))
    have short : k < pages.length := by omega
    obtain ⟨_, _, given⟩ := serves.given (List.getElem_mem short)
    have listed := handed _ _ _ token given (by rw [← lastToken?_take_succ short, asked])
    simpa [asked] using listed
  obtain ⟨a, ha, b, hb, differ, same⟩ := Finset.exists_ne_map_eq_of_card_lt_of_maps_to few maps
  have ha : a < tokens.length + 1 := by simpa using ha
  have hb : b < tokens.length + 1 := by simpa using hb
  rcases Nat.lt_or_gt_of_ne differ with first | first
  · exact ⟨a + 1, b + 1, by omega, by omega, by omega, same⟩
  · exact ⟨b + 1, a + 1, by omega, by omega, by omega, same.symm⟩

/-- Pages that do not end a listing and outnumber twice the tokens have gone round. -/
theorem goesRound_of_serves (alike : AnswersAlike repository) (handed : HandsOut repository tokens)
    (serves : Serves repository (.first options.metadataPrefix options.set) s pages t)
    (open_ : ∀ k, 0 < k → k ≤ 2 * tokens.length + 1 → ¬ Ends (pages.take k))
    (many : 2 * tokens.length + 1 ≤ pages.length) : GoesRound repository options s := by
  have more (k : Nat) (positive : 0 < k) (short : k ≤ tokens.length + 1) :
      lastToken? (pages.take k) ≠ none :=
    fun last => open_ k positive (by omega) (.inl last)
  -- the pages up to the `i`th, those from there to the `j`th, and as many again
  obtain ⟨i, j, positive, later, bound, same⟩ := serves.token_again handed more (by omega)
  obtain ⟨again, _⟩ := serves.take_matches alike positive (Nat.le_of_lt later) same
    (show j + (j - i) ≤ _ by omega)
  have once : pages.take i ++ (pages.drop i).take (j - i) = pages.take j := by
    rw [← List.take_add, Nat.add_sub_cancel' (Nat.le_of_lt later)]
  have twice : pages.take i ++ (pages.drop i).take (j - i) ++ (pages.drop i).take (j - i) =
      pages.take (j + (j - i)) := by
    rw [once, again, List.take_add]
  have length : ((pages.drop i).take (j - i)).length = j - i := by simp; omega
  obtain ⟨u, served⟩ := serves.take (show 0 < j + (j - i) by omega)
  have more (k : Nat) (positive : 0 < k) (short : k ≤ (pages.take (j + (j - i))).length) :
      ¬ Ends ((pages.take (j + (j - i))).take k) := by
    have short : k ≤ j + (j - i) := Nat.le_trans short (List.length_take_le _ _)
    rw [List.take_take, Nat.min_eq_left short]
    exact open_ k positive (by omega)
  refine ⟨pages.take i, (pages.drop i).take (j - i), u, ?_, ?_, ?_, twice ▸ served, twice ▸ more⟩
  · intro none
    rcases List.take_eq_nil_iff.mp none with zero | empty
    · omega
    · simp [empty] at many
  · rw [length]
    by_contra single
    have next : j - i = 1 := by omega
    apply open_ (j + (j - i)) (by omega) (by omega)
    rw [← twice]
    obtain ⟨page, page_eq⟩ := List.length_eq_one_iff.mp (length.trans next)
    rw [page_eq] at once ⊢
    obtain ⟨token, _, asked, _⟩ := serves.answered positive (show i < _ by omega)
    have token_eq : page.token = some token := by
      rw [← lastToken?_concat (pages.take i) page, once, ← same, asked]
    exact .inr (.inr (repeats_of_twice token_eq _))
  · rw [once, same]

theorem Listed.length_le (alike : AnswersAlike repository) (handed : HandsOut repository tokens)
    (straight : ¬ GoesRound repository options s) {log : Log}
    (listed : Listed repository options s log pages t) :
    pages.length ≤ 2 * tokens.length + 1 ∧ (¬ Ends pages → pages.length ≤ 2 * tokens.length) := by
  refine ⟨?_, ?_⟩
  · by_contra many
    apply straight (goesRound_of_serves alike handed listed.served ?_ (by omega))
    intro k positive short
    exact listed.going k positive (by omega)
  · intro more
    by_contra many
    apply straight (goesRound_of_serves alike handed listed.served ?_ (by omega))
    intro k positive short
    rcases Nat.lt_or_ge k pages.length with before | whole
    · exact listed.going k positive before
    · rwa [List.take_of_length_le whole]

theorem exchanges_length_le (alike : AnswersAlike repository) (handed : HandsOut repository tokens)
    (straight : ¬ GoesRound repository options s) (choose : Chooser) :
    (exchanges repository options choose s).length ≤ 2 * tokens.length + 1 ∧
      (2 * tokens.length < repository.pages →
        ∀ state, (harvest repository options choose s).1 ≠ .error (.tooManyPages state)) := by
  rw [← (harvest_logged repository options choose [] s).1]
  unfold exchanges
  rcases given : repository.list (.first options.metadataPrefix options.set) s with
    ⟨cause | page, t⟩
  · rw [harvest_refused (logged_list given [])]
    exact ⟨by simp, fun _ state same => by cases same⟩
  · obtain ⟨result, log, u, concludes, eq⟩ := harvest_concludes choose given
    rw [eq]
    cases concludes with
    | listed listed =>
      obtain ⟨bound, _⟩ := listed.length_le alike handed straight
      exact ⟨listed.length_eq ▸ bound, fun _ state same => by cases same⟩
    | refused listed _ more =>
      have bound := (listed.length_le alike handed straight).2 more
      refine ⟨?_, fun _ state same => by cases same⟩
      rw [← listed.length_eq] at bound
      simpa using bound
    | cancelled listed _ more =>
      obtain ⟨bound, _⟩ := listed.length_le alike handed straight
      exact ⟨listed.length_eq ▸ bound, fun _ state same => by cases same⟩
    | unended listed _ all =>
      obtain ⟨bound, _⟩ := listed.length_le alike handed straight
      exact ⟨listed.length_eq ▸ bound, fun granted => by omega⟩

end Bounds

section Rounds
variable {repository : Repository σ} {options : HarvestOptions} {s t : σ}

/-- A listing that is served pages behind which it stands as before goes on without end. -/
theorem resumeListing_goes_on (alike : AnswersAlike repository)
    (calm : ∀ t, repository.isCancelled t = false) {request : ListRequest}
    {whole : List ListingPage} (serves : Serves repository request s whole t)
    (open_ : ∀ k, 0 < k → k ≤ whole.length → ¬ Ends (whole.take k)) {start : Nat}
    (begun : 0 < start) (inside : start < whole.length) (back : Matches whole (whole.take start))
    {left k : Nat} {state : HarvestState} {pages : List ListingPage} {log : Log} {u : σ}
    (took : Took state pages) (same : Matches pages (whole.take k)) (positive : 0 < k)
    (short : k < whole.length) :
    ∃ last, (resumeListing repository.logged left state (log, u)).1 = .error (.tooManyPages last) ∧
      (resumeListing repository.logged left state (log, u)).2.1.length = log.length + left := by
  -- The place `k` in the pages served carries over; at their end it is `start` once more.
  induction left generalizing k state pages log u with
  | zero => exact ⟨state, rfl, rfl⟩
  | succ left ih =>
    obtain ⟨token, v, asked, answer⟩ := serves.answered positive short
    have ahead := open_ (k + 1) (Nat.succ_pos k) short
    rw [List.take_succ_eq_append_getElem short] at ahead
    have below : ¬ ReachesTotal pages := by
      rw [same.reachesTotal_iff]
      exact fun total => open_ k positive (Nat.le_of_lt short) (.inr (.inl total))
    have moving : ¬ Repeats (pages ++ [whole[k]]) := by
      rw [same.repeats_concat_iff]
      exact fun again => ahead (.inr (.inr again))
    obtain ⟨w, given⟩ : ∃ w, repository.list (.resume token) u = (.ok whole[k], w) :=
      ⟨_, Prod.ext (by rw [← answer, alike _ v u]) rfl⟩
    have going : repository.logged.isCancelled (log, u) = false := calm u
    have onward : resumeListing repository.logged (left + 1) state (log, u) = _ :=
      resumeListing_page took below (same.token.trans asked) going (logged_list given log) moving
        repository.pages left
    obtain ⟨j, same', begun', inside'⟩ : ∃ j, Matches (pages ++ [whole[k]]) (whole.take j) ∧
        0 < j ∧ j < whole.length := by
      have next := same.concat whole[k]
      rw [← List.take_succ_eq_append_getElem short] at next
      rcases Nat.lt_or_ge (k + 1) whole.length with more | all
      · exact ⟨k + 1, next, Nat.succ_pos k, more⟩
      · rw [List.take_of_length_le all] at next
        exact ⟨start, next.trans back, begun, inside⟩
    rw [onward]
    obtain ⟨last, stopped, count⟩ :=
      ih ((took.phase .resuming).absorb whole[k]) same' begun' inside'
    refine ⟨last, stopped, count.trans ?_⟩
    rw [List.length_append, List.length_singleton, Nat.add_assoc, Nat.add_comm 1 left]

theorem GoesRound.exchanges_length (alike : AnswersAlike repository)
    (calm : ∀ t, repository.isCancelled t = false) (around : GoesRound repository options s)
    (choose : Chooser) : (exchanges repository options choose s).length = repository.pages + 1 := by
  obtain ⟨before, round, t, begun, several, _, serves, open_⟩ := around
  have more : round ≠ [] := by
    rintro rfl
    simp at several
  have first : 0 < before.length := List.length_pos_iff.mpr begun
  have once : 0 < (before ++ round).length := by
    rw [List.length_append]
    omega
  have twice : (before ++ round).length < (before ++ round ++ round).length := by
    simp only [List.length_append]
    omega
  have back : Matches (before ++ round ++ round)
      ((before ++ round ++ round).take (before ++ round).length) := by
    rw [List.take_left]
    exact matches_of_round before more
  obtain ⟨page, u, given, head⟩ := serves.first
  obtain ⟨rest, all⟩ := List.head?_eq_some_iff.mp head
  have start : Matches [page] ((before ++ round ++ round).take 1) := by
    rw [all]
    exact .refl [page]
  have took : Took (({ phase := .listing } : HarvestState).absorb page) [page] :=
    (took_nil .listing).absorb page
  unfold exchanges
  rw [harvest_listed (logged_list given [])]
  obtain ⟨last, _, count⟩ := resumeListing_goes_on alike calm serves open_ once twice back took
    start Nat.one_pos (Nat.lt_of_le_of_lt once twice)
  exact count.trans (Nat.add_comm 1 _)

theorem Serves.granting (n : Nat) {request : ListRequest} {pages : List ListingPage}
    (serves : Serves repository request s pages t) :
    Serves (repository.granting n) request s pages t := by
  induction serves with
  | last given => exact .last given
  | next given asked going _ ih => exact .next given asked going ih

theorem GoesRound.granting (n : Nat) (around : GoesRound repository options s) :
    GoesRound (repository.granting n) options s := by
  obtain ⟨before, round, t, begun, several, back, serves, open_⟩ := around
  exact ⟨before, round, t, begun, several, back, serves.granting n, open_⟩

end Rounds

/-- Of a repository that gives a request the same answer at any time and has so many tokens, a
harvest asks for at most one page more than twice their number, unless its tokens come round in
two or more pages before it ends. Then it asks for as many pages as it may, and never ends unless
it is cancelled. -/
theorem exchanges_bounded_unless_goesRound (repository : Repository σ) (options : HarvestOptions)
    (choose : Chooser) (s : σ) {tokens : List String} (alike : AnswersAlike repository)
    (handed : HandsOut repository tokens) :
    (¬ GoesRound repository options s → ∀ n,
      (exchanges (repository.granting n) options choose s).length ≤ 2 * tokens.length + 1 ∧
        (2 * tokens.length < n → ∀ state,
          (harvest (repository.granting n) options choose s).1 ≠ .error (.tooManyPages state))) ∧
    (GoesRound repository options s → (∀ t, repository.isCancelled t = false) → ∀ n,
      (exchanges (repository.granting n) options choose s).length = n + 1) := by
  refine ⟨?_, ?_⟩
  · intro straight n
    have alike' : AnswersAlike (repository.granting n) := alike
    have handed' : HandsOut (repository.granting n) tokens := handed
    have straight' : ¬ GoesRound (repository.granting n) options s := fun around =>
      straight (around.granting repository.pages)
    exact exchanges_length_le alike' handed' straight' choose
  · intro around calm n
    have alike' : AnswersAlike (repository.granting n) := alike
    exact (around.granting n).exchanges_length alike' calm choose

theorem not_ends_concat {pages : List ListingPage} {page : ListingPage} {token : String}
    (unstated : declaredTotal? (pages ++ [page]) = none) (given : page.token = some token)
    (fresh : lastToken? pages ≠ some token) : ¬ Ends (pages ++ [page]) := by
  rintro (last | total | again)
  · simp [given] at last
  · obtain ⟨total, stated, _⟩ := total
    simp [unstated] at stated
  · obtain ⟨other, asked, same, _⟩ := repeats_concat.mp again
    exact fresh (asked.trans (same.symm.trans given))

def turnstilePage : ListingPage := { identifiers := ["oai:1"], token := "a" }

/-- A repository that gives the same page to every request. -/
def turnstile : Repository Unit where
  list _ _ := (.ok turnstilePage, ())
  record _ _ _ := (.ok .none, ())

/-- A repository with two pages, the token of each of which leads to the other. -/
def carousel : Repository Unit where
  list request _ :=
    if request = .resume "a" then (.ok { identifiers := ["oai:2"], token := "b" }, ())
    else (.ok { identifiers := ["oai:1"], token := "a" }, ())
  record _ _ _ := (.ok .none, ())

def carouselPages : List ListingPage :=
  [{ identifiers := ["oai:1"], token := "a" }, { identifiers := ["oai:2"], token := "b" },
    { identifiers := ["oai:1"], token := "a" }, { identifiers := ["oai:2"], token := "b" },
    { identifiers := ["oai:1"], token := "a" }]

theorem turnstile_straight (options : HarvestOptions) : ¬ GoesRound turnstile options () := by
  rintro ⟨before, round, t, begun, several, _, serves, open_⟩
  have two : 2 ≤ (before ++ round ++ round).length := by
    simp only [List.length_append]
    omega
  have same : ∀ page ∈ (before ++ round ++ round).take 2, page = turnstilePage := by
    intro page listed
    obtain ⟨_, _, given⟩ := serves.given (List.mem_of_mem_take listed)
    exact (Except.ok.inj given).symm
  have again : Repeats ([] ++ [turnstilePage] ++ [turnstilePage]) := repeats_of_twice rfl []
  apply open_ 2 (by decide) two
  rw [List.eq_replicate_iff.mpr ⟨List.length_take_of_le two, same⟩]
  exact .inr (.inr again)

theorem handsOut_carousel : HandsOut carousel ["a", "b"] := by
  intro request s page token given listed
  by_cases first : request = .resume "a"
  · obtain rfl : _ = page := by simpa [carousel, first] using given
    cases listed
    decide
  · obtain rfl : _ = page := by simpa [carousel, first] using given
    cases listed
    decide

theorem carousel_goesRound : GoesRound carousel {} () := by
  refine ⟨carouselPages.take 1, (carouselPages.drop 1).take 2, (), by decide, by decide, by decide,
    ?_, ?_⟩
  · exact .next rfl rfl rfl (.next rfl rfl rfl (.next rfl rfl rfl (.next rfl rfl rfl (.last rfl))))
  · intro k positive short
    obtain ⟨k, rfl⟩ := Nat.exists_eq_succ_of_ne_zero (Nat.ne_of_gt positive)
    change ¬ Ends (carouselPages.take (k + 1))
    have short : k < carouselPages.length := short
    rw [List.take_succ_eq_append_getElem short]
    obtain ⟨token, unstated, given, fresh⟩ : ∃ token,
        declaredTotal? (carouselPages.take k ++ [carouselPages[k]]) = none ∧
        carouselPages[k].token = some token ∧ lastToken? (carouselPages.take k) ≠ some token := by
      have few : k = 0 ∨ k = 1 ∨ k = 2 ∨ k = 3 ∨ k = 4 := by
        have five : carouselPages.length = 5 := rfl
        omega
      rcases few with rfl | rfl | rfl | rfl | rfl
      all_goals exact ⟨_, rfl, rfl, by decide⟩
    exact not_ends_concat unstated given fresh

theorem turnstile_stops_carousel_goes_on :
    (AnswersAlike turnstile ∧ HandsOut turnstile ["a"] ∧ ∀ n, 2 < n →
      (exchanges (turnstile.granting n) {} (fun _ _ _ => []) ()).length ≤ 3 ∧
      ∀ state, (harvest (turnstile.granting n) {} (fun _ _ _ => []) ()).1 ≠
        .error (.tooManyPages state)) ∧
    AnswersAlike carousel ∧ HandsOut carousel ["a", "b"] ∧ ∀ n,
      (exchanges (carousel.granting n) {} (fun _ _ _ => []) ()).length = n + 1 := by
  have same : AnswersAlike turnstile := fun _ _ _ => rfl
  have handed : HandsOut turnstile ["a"] := by
    intro request s page token given listed
    cases given
    cases listed
    decide
  have alike : AnswersAlike carousel := fun _ _ _ => rfl
  refine ⟨⟨same, handed, ?_⟩, alike, handsOut_carousel, ?_⟩
  · intro n many
    obtain ⟨few, ended⟩ := (exchanges_bounded_unless_goesRound turnstile {} (fun _ _ _ => []) ()
      same handed).1 (turnstile_straight {}) n
    exact ⟨few, ended many⟩
  · exact (exchanges_bounded_unless_goesRound carousel {} (fun _ _ _ => []) () alike
      handsOut_carousel).2 carousel_goesRound (fun _ => rfl)

theorem carousel_requests_unbounded :
    AnswersAlike carousel ∧ HandsOut carousel ["a", "b"] ∧ ¬ ∃ bound, ∀ n,
      (exchanges (carousel.granting n) {} (fun _ _ _ => []) ()).length ≤ bound := by
  refine ⟨fun _ _ _ => rfl, handsOut_carousel, ?_⟩
  rintro ⟨bound, least⟩
  have alike : AnswersAlike (carousel.granting bound) := fun _ _ _ => rfl
  have count := (carousel_goesRound.granting bound).exchanges_length alike (fun _ => rfl)
    (fun _ _ _ => [])
  have limit : (exchanges (carousel.granting bound) {} (fun _ _ _ => []) ()).length ≤ bound :=
    least bound
  have granted : (carousel.granting bound).pages = bound := rfl
  omega

end CatalogGraph.Harvest
