import CatalogGraph.Identity.Slug
import Mathlib

/-!
Words of slugs: the slug of a text is what the text has of letters and digits, run by run, in lower
case and with single hyphens in between. So slugs are one exactly if their words are.
-/
namespace CatalogGraph.Identity

/-- A text has runs of ASCII letters and digits, in order: none is empty, and on either side of each
is another character or an end of the text. -/
inductive HasRuns : List Char → List (List Char) → Prop
  | gap {gap} (quiet : ∀ c ∈ gap, c.isAlphanum = false) : HasRuns gap []
  | run {gap run rest runs} (quiet : ∀ c ∈ gap, c.isAlphanum = false) (filled : run ≠ [])
      (letters : ∀ c ∈ run, c.isAlphanum) (ends : ∀ c ∈ rest.head?, c.isAlphanum = false)
      (more : HasRuns rest runs) : HasRuns (gap ++ (run ++ rest)) (run :: runs)

/-- A text cut at all characters other than ASCII letters and digits. -/
def runsOf (cs : List Char) : List (List Char) :=
  (cs.splitOnP fun c => !c.isAlphanum).filter (· ≠ [])

/-- The runs of a text in lower case. -/
def slugWords (s : String) : List (List Char) := (runsOf s.toList).map (·.map Char.toLower)

section Runs
variable {cs gap run rest : List Char} {runs : List (List Char)}

theorem runsOf_cons_gap {c : Char} (quiet : c.isAlphanum = false) (cs : List Char) :
    runsOf (c :: cs) = runsOf cs := by
  have cut : (c :: cs).splitOnP (fun c => !c.isAlphanum) =
      [].splitOnP (fun c => !c.isAlphanum) ++ cs.splitOnP fun c => !c.isAlphanum :=
    List.splitOnP_append_cons [] cs (by simp [quiet])
  rw [runsOf, cut]
  simp [runsOf]

theorem runsOf_gap (quiet : ∀ c ∈ gap, c.isAlphanum = false) (rest : List Char) :
    runsOf (gap ++ rest) = runsOf rest := by
  induction gap with
  | nil => rfl
  | cons c gap ih =>
    obtain ⟨first, later⟩ := List.forall_mem_cons.mp quiet
    rw [List.cons_append, runsOf_cons_gap first, ih later]

theorem runsOf_run (filled : run ≠ []) (letters : ∀ c ∈ run, c.isAlphanum)
    (ends : ∀ c ∈ rest.head?, c.isAlphanum = false) :
    runsOf (run ++ rest) = run :: runsOf rest := by
  have uncut : ∀ c ∈ run, (!c.isAlphanum) = false := fun c mem => by simp [letters c mem]
  cases rest with
  | nil => simp [runsOf, List.splitOnP_eq_singleton uncut, filled]
  | cons c rest =>
    have quiet : c.isAlphanum = false := ends c rfl
    rw [runsOf_cons_gap quiet, runsOf,
      List.splitOnP_append_cons_of_forall_mem uncut c (by simp [quiet])]
    simp [filled, runsOf]

/-- A text has no other runs than those it is cut into. -/
theorem HasRuns.eq_runsOf (has : HasRuns cs runs) : runs = runsOf cs := by
  induction has with
  | gap quiet =>
    have none := runsOf_gap quiet []
    rw [List.append_nil] at none
    rw [none]
    rfl
  | run quiet filled letters ends _ ih => rw [runsOf_gap quiet, runsOf_run filled letters ends, ih]

theorem HasRuns.first (filled : run ≠ []) (letters : ∀ c ∈ run, c.isAlphanum)
    (ends : ∀ c ∈ rest.head?, c.isAlphanum = false) (more : HasRuns rest runs) :
    HasRuns (run ++ rest) (run :: runs) := by
  have has : HasRuns ([] ++ (run ++ rest)) (run :: runs) := .run nofun filled letters ends more
  exact has

theorem HasRuns.cons_gap {c : Char} (quiet : c.isAlphanum = false) (has : HasRuns cs runs) :
    HasRuns (c :: cs) runs := by
  cases has with
  | gap quiet' => exact .gap (List.forall_mem_cons.mpr ⟨quiet, quiet'⟩)
  | run quiet' filled letters ends more =>
    exact .run (List.forall_mem_cons.mpr ⟨quiet, quiet'⟩) filled letters ends more

theorem exists_hasRuns (cs : List Char) : ∃ runs, HasRuns cs runs := by
  induction cs with
  | nil => exact ⟨[], .gap nofun⟩
  | cons c cs ih =>
    obtain ⟨runs, has⟩ := ih
    cases letter : c.isAlphanum with
    | false => exact ⟨runs, has.cons_gap letter⟩
    | true =>
      by_cases ends : ∀ d ∈ cs.head?, d.isAlphanum = false
      · exact ⟨[c] :: runs, .first (List.cons_ne_nil c []) (by simpa) ends has⟩
      · -- the letter belongs to the run that the rest begins with
        cases has with
        | gap quiet => exact absurd (fun d first => quiet d (List.mem_of_mem_head? first)) ends
        | @run gap run rest runs quiet filled letters ends' more =>
          cases gap with
          | nil =>
            exact ⟨(c :: run) :: runs, .first (List.cons_ne_nil c run)
              (List.forall_mem_cons.mpr ⟨letter, letters⟩) ends' more⟩
          | cons d gap => exact absurd (by simpa using quiet d List.mem_cons_self) ends

theorem hasRuns_runsOf (cs : List Char) : HasRuns cs (runsOf cs) := by
  obtain ⟨runs, has⟩ := exists_hasRuns cs
  exact has.eq_runsOf ▸ has

end Runs

/-- Runs behind each other, with a hyphen in front of each. -/
def hyphened (runs : List (List Char)) : List Char := runs.flatMap ('-' :: ·)

section Joined
variable {cs gap run rest : List Char} {runs : List (List Char)}

theorem intercalate_cons (run : List Char) (runs : List (List Char)) :
    ['-'].intercalate (run :: runs) = run ++ hyphened runs := by
  induction runs generalizing run with
  | nil => simp [hyphened]
  | cons next rest ih => simp [List.intercalate_cons_cons, ih, hyphened]

theorem slugFrom_gap (quiet : ∀ c ∈ gap, c.isAlphanum = false) (started : Bool) (rest : List Char) :
    slugFrom started true (gap ++ rest) = slugFrom started true rest := by
  induction gap with
  | nil => rfl
  | cons c gap ih =>
    obtain ⟨first, later⟩ := List.forall_mem_cons.mp quiet
    simp [slugFrom, first, ih later]

theorem slugFrom_run (letters : ∀ c ∈ run, c.isAlphanum) (rest : List Char) :
    slugFrom true false (run ++ rest) = run.map Char.toLower ++ slugFrom true false rest := by
  induction run with
  | nil => rfl
  | cons c run ih =>
    obtain ⟨first, later⟩ := List.forall_mem_cons.mp letters
    simp [slugFrom, first, ih later]

/-- Each run is taken up in lower case, with a hyphen in front of it unless it is the first. -/
theorem slugFrom_word (quiet : ∀ c ∈ gap, c.isAlphanum = false) (filled : run ≠ [])
    (letters : ∀ c ∈ run, c.isAlphanum) (ends : ∀ c ∈ rest.head?, c.isAlphanum = false)
    (started : Bool) : slugFrom started true (gap ++ (run ++ rest)) =
      (if started then ['-'] else []) ++ run.map Char.toLower ++ slugFrom true true rest := by
  obtain ⟨c, tail, rfl⟩ := List.exists_cons_of_ne_nil filled
  obtain ⟨first, later⟩ := List.forall_mem_cons.mp letters
  have behind : slugFrom true false rest = slugFrom true true rest := by
    cases rest with
    | nil => rfl
    | cons d rest => simp [slugFrom, ends d rfl]
  rw [slugFrom_gap quiet, List.cons_append, slugFrom, if_pos first, slugFrom_run later, behind]
  simp

theorem slugFrom_quiet (quiet : ∀ c ∈ gap, c.isAlphanum = false) (started : Bool) :
    slugFrom started true gap = [] := by
  have none := slugFrom_gap quiet started []
  rwa [List.append_nil, slugFrom] at none

theorem HasRuns.slugFrom_started (has : HasRuns cs runs) :
    slugFrom true true cs = hyphened (runs.map (·.map Char.toLower)) := by
  induction has with
  | gap quiet => exact slugFrom_quiet quiet true
  | run quiet filled letters ends _ ih =>
    rw [slugFrom_word quiet filled letters ends, ih]
    simp [hyphened]

theorem HasRuns.slugFrom_new (has : HasRuns cs runs) :
    slugFrom false false cs = ['-'].intercalate (runs.map (·.map Char.toLower)) := by
  have new : slugFrom false false cs = slugFrom false true cs := by cases cs <;> simp [slugFrom]
  rw [new]
  cases has with
  | gap quiet => exact slugFrom_quiet quiet false
  | run quiet filled letters ends more =>
    rw [slugFrom_word quiet filled letters ends, more.slugFrom_started, List.map_cons,
      intercalate_cons]
    simp

theorem toList_slug (s : String) : (slug s).toList = ['-'].intercalate (slugWords s) := by
  rw [slug, String.toList_ofList, (hasRuns_runsOf s.toList).slugFrom_new, slugWords]

end Joined

section Letters
variable {c : Char}

theorem isWordChar_toLower (letter : c.isAlphanum) : c.toLower.isLower ∨ c.toLower.isDigit := by
  rw [Char.isLower_toLower_eq_isAlpha]
  by_cases alpha : c.isAlpha
  · exact .inl alpha
  · have small : ¬ c.isUpper := fun capital => alpha (by simp [Char.isAlpha, capital])
    rw [Char.toLower_eq_of_not_isUpper small]
    exact .inr (by simpa [Char.isAlphanum, alpha] using letter)

theorem isAlphanum_of_isWordChar (word : c.isLower ∨ c.isDigit) : c.isAlphanum := by
  rcases word with small | digit
  · simp [Char.isAlphanum, Char.isAlpha, small]
  · simp [Char.isAlphanum, digit]

end Letters

section Words
variable {runs words : List (List Char)} {s : String}

theorem HasRuns.filled {cs : List Char} (has : HasRuns cs runs) :
    ∀ run ∈ runs, run ≠ [] ∧ ∀ c ∈ run, c.isAlphanum := by
  induction has with
  | gap => exact nofun
  | run _ filled letters _ _ ih => exact List.forall_mem_cons.mpr ⟨⟨filled, letters⟩, ih⟩

theorem HasRuns.eq_nil_iff {cs : List Char} (has : HasRuns cs runs) :
    runs = [] ↔ ∀ c ∈ cs, c.isAlphanum = false := by
  cases has with
  | gap quiet => simpa using quiet
  | @run gap run rest runs _ filled letters _ _ =>
    obtain ⟨c, tail, rfl⟩ := List.exists_cons_of_ne_nil filled
    have among : c ∈ gap ++ (c :: tail ++ rest) := by simp
    refine iff_of_false (List.cons_ne_nil _ _) fun quiet => ?_
    simpa [letters c List.mem_cons_self] using quiet c among

theorem word_of_mem_slugWords {word : List Char} (mem : word ∈ slugWords s) :
    word ≠ [] ∧ ∀ c ∈ word, c.isLower ∨ c.isDigit := by
  obtain ⟨run, among, rfl⟩ := List.mem_map.mp mem
  obtain ⟨filled, letters⟩ := (hasRuns_runsOf s.toList).filled run among
  refine ⟨by simpa using filled, fun c lower => ?_⟩
  obtain ⟨d, member, rfl⟩ := List.mem_map.mp lower
  exact isWordChar_toLower (letters d member)

/-- What is joined by hyphens has the runs that were joined. -/
theorem hasRuns_intercalate (filled : ∀ run ∈ runs, run ≠ [] ∧ ∀ c ∈ run, c.isAlphanum) :
    HasRuns (['-'].intercalate runs) runs := by
  induction runs with
  | nil => exact .gap nofun
  | cons run rest ih =>
    obtain ⟨⟨some, letters⟩, later⟩ := List.forall_mem_cons.mp filled
    cases rest with
    | nil =>
      have last : HasRuns (run ++ []) [run] := .first some letters (by simp) (.gap nofun)
      simpa using last
    | cons next rest =>
      rw [List.intercalate_cons_cons, List.append_assoc]
      exact .first some letters (by simp) ((ih later).cons_gap rfl)

theorem hasRuns_slug (s : String) : HasRuns (slug s).toList (slugWords s) := by
  rw [toList_slug]
  refine hasRuns_intercalate fun word mem => ?_
  obtain ⟨filled, letters⟩ := word_of_mem_slugWords mem
  exact ⟨filled, fun c member => isAlphanum_of_isWordChar (letters c member)⟩

theorem slugWords_slug (s : String) : slugWords (slug s) = slugWords s := by
  rw [slugWords, ← (hasRuns_slug s).eq_runsOf]
  simp [slugWords, Function.comp_def]

theorem slug_inj_iff {s t : String} : slug s = slug t ↔ slugWords s = slugWords t := by
  rw [← String.toList_inj]
  constructor
  · intro same
    rw [(hasRuns_slug s).eq_runsOf, (hasRuns_slug t).eq_runsOf, same]
  · intro same
    rw [toList_slug, toList_slug, same]

/-- Where hyphens part a text into pieces none of which is empty, they stand inside and alone. -/
theorem hyphens_apart {cs : List Char} (filled : [] ∉ cs.splitOn '-') :
    cs.head? ≠ some '-' ∧ cs.getLast? ≠ some '-' ∧ ¬ ['-', '-'] <:+: cs := by
  have parts (front back : List Char) :
      (front ++ '-' :: back).splitOn '-' = front.splitOn '-' ++ back.splitOn '-' :=
    List.splitOnP_append_cons front back rfl
  have leading (back : List Char) : [] ∈ ('-' :: back).splitOn '-' := by
    have cut := parts [] back
    rw [List.nil_append] at cut
    rw [cut]
    exact List.mem_append_left _ List.mem_cons_self
  refine ⟨fun first => ?_, fun last => ?_, ?_⟩
  · obtain ⟨back, rfl⟩ := List.head?_eq_some_iff.mp first
    exact filled (leading back)
  · obtain ⟨front, rfl⟩ := List.getLast?_eq_some_iff.mp last
    rw [parts] at filled
    exact filled (List.mem_append_right _ List.mem_cons_self)
  · rintro ⟨front, back, rfl⟩
    rw [List.append_assoc, List.cons_append, parts] at filled
    exact filled (List.mem_append_right _ (leading back))

theorem mem_slug {c : Char} (mem : c ∈ (slug s).toList) : c.isLower ∨ c.isDigit ∨ c = '-' := by
  have word_or_hyphen (word : List Char) (among : word ∈ slugWords s) (member : c ∈ word) :
      c.isLower ∨ c.isDigit ∨ c = '-' :=
    or_assoc.mp (.inl ((word_of_mem_slugWords among).2 c member))
  rw [toList_slug] at mem
  cases words : slugWords s with
  | nil => simp [words] at mem
  | cons word rest =>
    rw [words] at mem word_or_hyphen
    rw [intercalate_cons, List.mem_append, hyphened, List.mem_flatMap] at mem
    rcases mem with first | ⟨later, among, member⟩
    · exact word_or_hyphen word List.mem_cons_self first
    · rcases List.mem_cons.mp member with hyphen | member
      · exact .inr (.inr hyphen)
      · exact word_or_hyphen later (List.mem_cons_of_mem word among) member

theorem slug_eq_empty_iff : slug s = "" ↔ slugWords s = [] := by
  rw [← String.toList_inj, toList_slug]
  cases words : slugWords s with
  | nil => simp
  | cons word rest =>
    have filled : word ≠ [] := (word_of_mem_slugWords (words ▸ List.mem_cons_self)).1
    simp [intercalate_cons, filled]

theorem slug_hyphens_apart (s : String) : (slug s).toList.head? ≠ some '-' ∧
    (slug s).toList.getLast? ≠ some '-' ∧ ¬ ['-', '-'] <:+: (slug s).toList := by
  by_cases none : slugWords s = []
  · simp [toList_slug, none]
  · refine hyphens_apart fun empty => ?_
    rw [toList_slug, List.splitOn_intercalate '-' (fun word mem hyphen => ?_) none] at empty
    · exact (word_of_mem_slugWords empty).1 rfl
    · rcases (word_of_mem_slugWords mem).2 '-' hyphen with small | digit
      · cases small
      · cases digit

/-- The slug of a text is its runs of ASCII letters and digits in lower case, joined by single
hyphens. So it consists of small letters, digits and hyphens, of which none stands at an end or
beside another; it is empty exactly if there is no letter or digit in the text; and it is its own
slug. Two texts have one slug exactly if they have the same runs in lower case. -/
theorem slug_joins_lower_runs (s : String) :
    (∀ runs, HasRuns s.toList runs ↔ runs = runsOf s.toList) ∧
    slug s = "-".intercalate ((slugWords s).map String.ofList) ∧
    (∀ c ∈ (slug s).toList, c.isLower ∨ c.isDigit ∨ c = '-') ∧
    ((slug s).toList.head? ≠ some '-' ∧ (slug s).toList.getLast? ≠ some '-' ∧
      ¬ ['-', '-'] <:+: (slug s).toList) ∧
    (slug s = "" ↔ ∀ c ∈ s.toList, c.isAlphanum = false) ∧
    slug (slug s) = slug s ∧
    ∀ t, slug s = slug t ↔ slugWords s = slugWords t := by
  have runs_iff (runs : List (List Char)) : HasRuns s.toList runs ↔ runs = runsOf s.toList :=
    ⟨HasRuns.eq_runsOf, fun same => same ▸ hasRuns_runsOf _⟩
  have again : slug (slug s) = slug s := slug_inj_iff.mpr (slugWords_slug s)
  refine ⟨runs_iff, ?_, fun _ => mem_slug, slug_hyphens_apart s, ?_, again, fun _ => slug_inj_iff⟩
  · rw [← String.toList_inj, toList_slug, String.toList_intercalate]
    simp
  · rw [slug_eq_empty_iff, slugWords, List.map_eq_nil_iff, (hasRuns_runsOf s.toList).eq_nil_iff]

example : slug "  Harper & Brothers, 1851 " = "harper-brothers-1851" := by decide

end Words

end CatalogGraph.Identity
