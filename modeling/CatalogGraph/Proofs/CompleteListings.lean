import CatalogGraph.Proofs.ListingPages

/-!
Complete listings: a harvest that succeeds has the identifiers of all pages up to the first behind
which the listing ends, and every repository whose tokens lead to a last page is listed whole.
-/
namespace CatalogGraph.Harvest
variable {σ : Type}

theorem Repeats.lastToken?_isSome {pages : List ListingPage} (again : Repeats pages) :
    (lastToken? pages).isSome := by
  obtain ⟨earlier, page, token, rfl, _, same, _⟩ := again
  simp [same]

theorem mem_identifiersOf {pages : List ListingPage} {identifier : String} :
    identifier ∈ identifiersOf pages ↔ ∃ page ∈ pages, identifier ∈ page.identifiers := by
  simp [identifiersOf, List.mem_eraseDups]

theorem nodup_identifiersOf (pages : List ListingPage) : (identifiersOf pages).Nodup :=
  nodup_eraseDups _

section Harvests
variable {repository : Repository σ} {options : HarvestOptions}

theorem finish_of_unsampled (unsampled : options.sampleSize = none) (choose : Chooser)
    (state : HarvestState) :
    finish options choose state = { state with phase := .done } := by
  simp [finish, unsampled]

/-- A harvest that succeeds concludes with the pages that it has received. -/
theorem listed_of_harvest {choose : Chooser} {s t : σ} {state : HarvestState} {log : Log}
    (done : harvest repository.logged options choose ([], s) = (.ok state, log, t)) :
    ∃ before pages u, Listed repository options s log pages u ∧ Took before pages ∧ Ends pages ∧
      state = finish options choose before := by
  rcases given : repository.list (.first options.metadataPrefix options.set) s with
    ⟨cause | page, u⟩
  · rw [harvest_refused (logged_list given [])] at done
    cases done
  · obtain ⟨result, log', u, concludes, eq⟩ := harvest_concludes choose given
    rw [eq] at done
    cases concludes with
    | listed listed took ends =>
      cases done
      exact ⟨_, _, _, listed, took, ends, rfl⟩
    | refused => cases done
    | cancelled => cases done
    | unended => cases done

/-- A repository whose tokens lead to a page without one is listed up to that page, if no page
before it ends the listing in another way. -/
theorem harvest_of_serves (choose : Chooser) {s t : σ} {pages : List ListingPage}
    (serves : Serves repository (.first options.metadataPrefix options.set) s pages t)
    (last : lastToken? pages = none)
    (open_ : ∀ k, 0 < k → k < pages.length →
      ¬ ReachesTotal (pages.take k) ∧ ¬ Repeats (pages.take k)) :
    ∃ final, Took final pages ∧ ∀ n, pages.length ≤ n →
      harvest (repository.granting n) options choose s =
        (.ok (finish options choose final), t) := by
  have moving : ¬ Repeats pages := by
    intro again
    simpa [last] using again.lastToken?_isSome
  have more (k : Nat) (positive : 0 < k) (short : k < pages.length) : ¬ Ends (pages.take k) := by
    rintro (none | total | again)
    · obtain ⟨token, _, asked, _⟩ := serves.answered positive short
      simp [asked] at none
    · exact (open_ k positive short).1 total
    · exact (open_ k positive short).2 again
  obtain ⟨final, took, onward⟩ := harvest_serves choose serves more moving
  refine ⟨final, took, ?_⟩
  intro n enough
  have room : n + 1 = (n - pages.length + 1) + pages.length := by omega
  have ended : final.nextToken? = none := took.nextToken?_eq_none_iff.mpr (.inl last)
  rw [onward n _ room, resumeListing_done ended]
  rfl

/-- A harvest that succeeds has the identifiers of all pages that it received, each once and in the
order in which they came first. It asked for the first page by its options and for each other one
with the token of the page before it, and it ended behind the first page without a token, or behind
which the declared total was reached, or that repeated its token and brought nothing. A repository
whose tokens lead to a page without one, and no page before which ends the listing, is listed
whole. -/
theorem harvest_lists_each_identifier_once (repository : Repository σ) {options : HarvestOptions}
    (unsampled : options.sampleSize = none) (choose : Chooser) (s : σ) :
    (∀ state t, harvest repository options choose s = (.ok state, t) →
      state.phase = .done ∧ ∃ (log : Log) (pages : List ListingPage) (tokens : List String),
        harvest repository.logged options choose ([], s) = (.ok state, log, t) ∧
        log.map (·.2) = pages.map .ok ∧
        state.identifiers = (pages.flatMap (·.identifiers)).eraseDups ∧
        log.map (·.1) = .first options.metadataPrefix options.set :: tokens.map .resume ∧
        pages.dropLast.map (·.token) = tokens.map some ∧
        state.pages = log.length ∧
        ∀ k, 0 < k → k ≤ pages.length → (Ends (pages.take k) ↔ k = pages.length)) ∧
    ∀ pages t, Serves repository (.first options.metadataPrefix options.set) s pages t →
      lastToken? pages = none →
      (∀ k, 0 < k → k < pages.length →
        ¬ ReachesTotal (pages.take k) ∧ ¬ Repeats (pages.take k)) →
      ∃ state, (∀ n, pages.length ≤ n →
          harvest (repository.granting n) options choose s = (.ok state, t)) ∧
        state.identifiers.Nodup ∧
        ∀ identifier, identifier ∈ state.identifiers ↔
          ∃ page ∈ pages, identifier ∈ page.identifiers := by
  refine ⟨?_, ?_⟩
  · intro state t done
    have logged : harvest repository.logged options choose ([], s) =
        (.ok state, (harvest repository.logged options choose ([], s)).2.1, t) := by
      have same := harvest_logged repository options choose [] s
      rw [done] at same
      exact Prod.ext same.1 (Prod.ext rfl same.2)
    obtain ⟨before, pages, _, listed, took, ends, rfl⟩ := listed_of_harvest logged
    obtain ⟨tokens, tokens_eq, requests⟩ := listed.requests
    have count : before.pages = _ := took.count.trans listed.length_eq.symm
    rw [finish_of_unsampled unsampled choose] at logged ⊢
    refine ⟨rfl, _, pages, tokens, logged, listed.answers, took.identifiers, requests, tokens_eq,
      count, ?_⟩
    intro k positive bound
    rcases Nat.lt_or_ge k pages.length with short | whole
    · exact ⟨fun ends => absurd ends (listed.going k positive short), fun h => by omega⟩
    · rw [List.take_of_length_le whole]
      exact ⟨fun _ => by omega, fun _ => ends⟩
  · intro pages t serves last open_
    obtain ⟨final, took, onward⟩ := harvest_of_serves choose serves last open_
    refine ⟨finish options choose final, onward, ?_⟩
    rw [finish_of_unsampled unsampled choose]
    have identifiers : final.identifiers = identifiersOf pages := took.identifiers
    refine ⟨?_, ?_⟩
    · exact identifiers ▸ nodup_identifiersOf pages
    · intro identifier
      exact identifiers ▸ mem_identifiersOf

end Harvests

/-- A repository that hands out pages in order, whatever it is asked for. -/
def shelf : Repository (List ListingPage) where
  list _ pages := (.ok (pages.headD {}), pages.drop 1)
  record _ _ pages := (.ok .none, pages)

/-- Pages that overlap, the second of which states a total that is never reached. -/
def overlappingPages : List ListingPage :=
  [{ identifiers := ["oai:1", "oai:2"], token := "a" },
    { identifiers := ["oai:2", "oai:3"], token := "b", size := some 9 },
    { identifiers := ["oai:3", "oai:1", "oai:4"] }]

theorem serves_overlappingPages :
    Serves shelf (.first "mods" none) overlappingPages overlappingPages [] :=
  .next rfl rfl rfl (.next rfl rfl rfl (.last rfl))

theorem overlappingPages_open {k : Nat} (positive : 0 < k) (short : k < 3) :
    ¬ ReachesTotal (overlappingPages.take k) ∧ ¬ Repeats (overlappingPages.take k) := by
  obtain rfl | rfl : k = 1 ∨ k = 2 := by omega
  · refine ⟨?_, not_repeats_singleton _⟩
    rintro ⟨total, stated, _⟩
    cases stated
  · refine ⟨?_, ?_⟩
    · rintro ⟨total, stated, reached⟩
      cases stated
      revert reached
      decide
    · intro again
      have two : overlappingPages.take 2 = overlappingPages.take 1 ++ [overlappingPages[1]] := rfl
      obtain ⟨token, asked, same, _⟩ := repeats_concat.mp (two ▸ again)
      cases asked
      revert same
      decide

theorem overlapping_pages_listed_once :
    ({} : HarvestOptions).sampleSize = none ∧ ∃ state : HarvestState,
      (∀ n, 3 ≤ n →
        harvest (shelf.granting n) {} (fun _ _ _ => []) overlappingPages = (.ok state, [])) ∧
      state.phase = .done ∧ state.identifiers.Nodup ∧
      ∀ identifier, identifier ∈ state.identifiers ↔
        ∃ page ∈ overlappingPages, identifier ∈ page.identifiers := by
  have unsampled : ({} : HarvestOptions).sampleSize = none := rfl
  refine ⟨unsampled, ?_⟩
  obtain ⟨received, whole⟩ :=
    harvest_lists_each_identifier_once shelf unsampled (fun _ _ _ => []) overlappingPages
  obtain ⟨state, harvested, once, listed⟩ := whole overlappingPages [] serves_overlappingPages rfl
    (fun _ positive short => overlappingPages_open positive short)
  have granted : harvest shelf {} (fun _ _ _ => []) overlappingPages = (.ok state, []) :=
    harvested shelf.pages (by decide)
  exact ⟨state, harvested, (received state [] granted).1, once, listed⟩

end CatalogGraph.Harvest
