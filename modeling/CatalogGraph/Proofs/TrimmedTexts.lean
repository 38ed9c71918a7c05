import CatalogGraph.Text.Blank
import Mathlib.Data.List.TakeWhile

/-!
Trimmed texts: the white space at both ends of a text is dropped, and nothing else.
-/
namespace CatalogGraph.Text

/-- A text of white space only. -/
def IsBlanks (cs : List Char) : Prop := ∀ c ∈ cs, isBlank c = true

/-- A text that neither begins nor ends with white space. -/
structure IsTrimmed (cs : List Char) : Prop where
  first : ∀ c ∈ cs.head?, isBlank c = false
  last : ∀ c ∈ cs.getLast?, isBlank c = false

variable {cs before behind : List Char}

theorem not_blank_of_isDigit {c : Char} (digit : c.isDigit = true) : isBlank c = false := by
  obtain ⟨low, high⟩ := Char.isDigit_iff_toNat.mp digit
  have low : 48 ≤ c.toNat := low
  have high : c.toNat ≤ 57 := high
  simp [isBlank]
  omega

theorem isBlanks_nil : IsBlanks [] := by simp [IsBlanks]

theorem IsBlanks.append (first : IsBlanks before) (second : IsBlanks behind) :
    IsBlanks (before ++ behind) :=
  List.forall_mem_append.mpr ⟨first, second⟩

theorem not_blank_last_append (first : ∀ c ∈ cs.getLast?, isBlank c = false)
    (second : ∀ c ∈ behind.getLast?, isBlank c = false) :
    ∀ c ∈ (cs ++ behind).getLast?, isBlank c = false := by
  intro c hc
  rw [List.getLast?_append, Option.mem_def, Option.or_eq_some_iff] at hc
  rcases hc with hc | ⟨-, hc⟩
  · exact second c hc
  · exact first c hc

theorem dropWhile_isBlank_of_first (first : ∀ c ∈ cs.head?, isBlank c = false) :
    cs.dropWhile isBlank = cs := by
  cases cs with
  | nil => rfl
  | cons c rest => rw [List.dropWhile_cons, if_neg (by simp [first c rfl])]

theorem trimChars_append_of_blanks (blanks : IsBlanks before) :
    trimChars (before ++ cs) = trimChars cs := by
  rw [trimChars, List.dropWhile_append_of_pos blanks, trimChars]

theorem IsTrimmed.trimChars_append (trimmed : IsTrimmed cs) (blanks : IsBlanks behind) :
    trimChars (cs ++ behind) = cs := by
  have ends : trimEndChars (cs ++ behind) = cs := by
    rw [trimEndChars, List.reverse_append,
      List.dropWhile_append_of_pos fun c hc => blanks c (List.mem_reverse.mp hc),
      dropWhile_isBlank_of_first (by simpa using trimmed.last), List.reverse_reverse]
  cases cs with
  | nil => rw [List.nil_append, trimChars, List.dropWhile_eq_nil_iff.mpr blanks]; rfl
  | cons c rest =>
    have starts : (c :: rest ++ behind).dropWhile isBlank = c :: rest ++ behind :=
      dropWhile_isBlank_of_first fun d hd => trimmed.first d hd
    rw [trimChars, starts, ends]

/-- Trimming finds a text within the white space around it. -/
theorem IsTrimmed.trimChars_within (trimmed : IsTrimmed cs) (front : IsBlanks before)
    (back : IsBlanks behind) : trimChars (before ++ (cs ++ behind)) = cs := by
  rw [trimChars_append_of_blanks front, trimmed.trimChars_append back]

theorem isTrimmed_nil : IsTrimmed [] := ⟨by simp, by simp⟩

theorem IsTrimmed.trimChars_eq (trimmed : IsTrimmed cs) : trimChars cs = cs := by
  simpa using trimmed.trimChars_append isBlanks_nil

theorem IsBlanks.trimChars_eq (blanks : IsBlanks cs) : trimChars cs = [] :=
  isTrimmed_nil.trimChars_append blanks

/-- A text without the white space at its end. -/
theorem exists_trimEndChars (cs : List Char) :
    ∃ behind, IsBlanks behind ∧ cs = trimEndChars cs ++ behind ∧
      ∀ c ∈ (trimEndChars cs).getLast?, isBlank c = false := by
  refine ⟨(cs.reverse.takeWhile isBlank).reverse, ?_, ?_, fun c hc => ?_⟩
  · exact fun c hc => List.mem_takeWhile_imp (List.mem_reverse.mp hc)
  · rw [trimEndChars, ← List.reverse_append, List.takeWhile_append_dropWhile, List.reverse_reverse]
  · rw [trimEndChars, List.getLast?_reverse] at hc
    have := List.head?_dropWhile_not isBlank cs.reverse
    simpa [Option.mem_def.mp hc] using this

/-- What remains of a text has no white space at its ends, and only white space was dropped. -/
theorem exists_trimChars (cs : List Char) :
    IsTrimmed (trimChars cs) ∧
      ∃ before behind, IsBlanks before ∧ IsBlanks behind ∧
        cs = before ++ (trimChars cs ++ behind) := by
  obtain ⟨behind, back, whole, last⟩ := exists_trimEndChars (cs.dropWhile isBlank)
  refine ⟨⟨fun c hc => ?_, last⟩, cs.takeWhile isBlank, behind, ?_, back, ?_⟩
  · -- the first character is that of the text without the white space before it
    have kept : (trimEndChars (cs.dropWhile isBlank)).head? = some c := hc
    have head : (cs.dropWhile isBlank).head? = some c := by
      rw [whole, List.head?_append, kept]
      rfl
    have := List.head?_dropWhile_not isBlank cs
    simpa [head] using this
  · exact fun c hc => List.mem_takeWhile_imp hc
  · rw [trimChars, ← whole, List.takeWhile_append_dropWhile]

end CatalogGraph.Text
