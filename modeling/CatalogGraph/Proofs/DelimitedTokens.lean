import CatalogGraph.Engine.Tokens
import CatalogGraph.Proofs.TrimmedTexts
import Mathlib.Data.List.Infix

/-!
Tokens of values: a value is cut at its delimiters, one delimiter after the other, with the white
space trimmed in between. However often it is cut, nothing but delimiters and white space is lost,
and for delimiters of one character one cut at all of them comes to the same.
-/
namespace CatalogGraph
open Text

/-- A text that holds tokens, in order: it is cut at delimiters into parts, each of which is white
space, or a token and the white space around it. -/
inductive HoldsTokens (delimiters : List String) : List Char → List String → Prop
  | blanks {cs} (blanks : IsBlanks cs) : HoldsTokens delimiters cs []
  | token {before behind} (token : String) (front : IsBlanks before) (back : IsBlanks behind) :
      HoldsTokens delimiters (before ++ (token.toList ++ behind)) [token]
  | parted {cs cs' delimiter tokens tokens'} (left : HoldsTokens delimiters cs tokens)
      (listed : delimiter ∈ delimiters) (filled : delimiter ≠ "")
      (right : HoldsTokens delimiters cs' tokens') :
      HoldsTokens delimiters (cs ++ (delimiter.toList ++ cs')) (tokens ++ tokens')

/-- A token is trimmed and not empty, and none of the delimiters occurs in it. -/
structure IsToken (delimiters : List String) (token : String) : Prop where
  filled : token ≠ ""
  trimmed : IsTrimmed token.toList
  whole : ∀ delimiter ∈ delimiters, delimiter ≠ "" → ¬ delimiter.toList <:+: token.toList

/-- The pieces without white space at their ends, as far as anything is left of them. -/
def trimmedPieces (pieces : List (List Char)) : List String :=
  (pieces.map fun piece => String.ofList (trimChars piece)).filter (· ≠ "")

/-- The trimmed pieces of a text that is cut at all characters of a kind. -/
def tokensAt (cuts : Char → Bool) (cs : List Char) : List String :=
  trimmedPieces (cs.splitOnP cuts)

theorem trimmedPieces_append (pieces pieces' : List (List Char)) :
    trimmedPieces (pieces ++ pieces') = trimmedPieces pieces ++ trimmedPieces pieces' := by
  simp [trimmedPieces]

theorem trimmedPieces_single {piece : List Char} (filled : trimChars piece ≠ []) :
    trimmedPieces [piece] = [String.ofList (trimChars piece)] := by
  simp [trimmedPieces, filled]

theorem trimmedPieces_blanks {piece : List Char} (blanks : IsBlanks piece) :
    trimmedPieces [piece] = [] := by
  simp [trimmedPieces, blanks.trimChars_eq]

theorem mem_trimmedPieces {pieces : List (List Char)} {token : String} :
    token ∈ trimmedPieces pieces ↔
      token ≠ "" ∧ ∃ piece ∈ pieces, trimChars piece = token.toList := by
  simp only [trimmedPieces, List.mem_filter, List.mem_map, decide_eq_true_eq]
  constructor
  · rintro ⟨⟨piece, mem, rfl⟩, filled⟩
    exact ⟨filled, piece, mem, by simp⟩
  · rintro ⟨filled, piece, mem, same⟩
    exact ⟨⟨piece, mem, by rw [same, String.ofList_toList]⟩, filled⟩

theorem splitAt_eq_flatMap (delimiter : String) (texts : List String) :
    splitAt delimiter texts =
      texts.flatMap fun s => trimmedPieces (piecesOn delimiter.toList s.toList) := by
  induction texts with
  | nil => rfl
  | cons s texts ih =>
    rw [List.flatMap_cons, ← ih, splitAt, List.flatMap_cons, ← trimmedPieces, trimmedPieces_append]
    rfl

/-! ### Cutting at one delimiter -/

section Pieces
variable {delimiters : List String} {delimiter : String} {cs : List Char}

/-- A piece holds what trimming leaves of it. -/
theorem holds_piece (piece : List Char) : HoldsTokens delimiters piece (trimmedPieces [piece]) := by
  obtain ⟨-, before, behind, front, back, whole⟩ := exists_trimChars piece
  by_cases empty : trimChars piece = []
  · have blanks : IsBlanks piece := by
      rw [whole, empty]
      exact front.append back
    rw [trimmedPieces_blanks blanks]
    exact .blanks blanks
  · have held : HoldsTokens delimiters _ _ :=
      .token (String.ofList (trimChars piece)) front back
    rwa [String.toList_ofList, ← whole, ← trimmedPieces_single empty] at held

/-- A separator at the beginning of a text is cut off. -/
theorem drop_of_isPrefixOf {separator rest : List Char} {c : Char} (filled : separator ≠ [])
    (begins : separator.isPrefixOf (c :: rest)) :
    c :: rest = separator ++ rest.drop (separator.length - 1) := by
  obtain ⟨behind, whole⟩ := List.isPrefixOf_iff_prefix.mp begins
  cases separator with
  | nil => exact absurd rfl filled
  | cons d separator =>
    obtain ⟨rfl, rfl⟩ := List.cons.inj whole
    simp

theorem holds_piecesFrom (listed : delimiter ∈ delimiters) (filled : delimiter ≠ "")
    (skip : Nat) (piece cs : List Char) :
    HoldsTokens delimiters (piece.reverse ++ cs.drop skip)
      (trimmedPieces (piecesFrom delimiter.toList skip piece cs)) := by
  fun_induction piecesFrom delimiter.toList skip piece cs with
  | case1 skip piece => simpa using holds_piece piece.reverse
  | case2 skip piece c rest ih => exact ih
  | case3 piece c rest begins ih =>
    rw [List.drop_zero, drop_of_isPrefixOf (by simpa using filled) begins,
      ← List.singleton_append, trimmedPieces_append]
    exact .parted (holds_piece piece.reverse) listed filled ih
  | case4 piece c rest other ih => simpa using ih

/-- Where no separator begins in the piece so far, none occurs in any piece. -/
theorem not_infix_of_mem_piecesFrom {separator : List Char} (filled : separator ≠ []) (skip : Nat)
    (piece cs : List Char)
    (none : ∀ part ≠ [], part <:+ piece.reverse → ¬ separator <+: part ++ cs.drop skip) :
    ∀ found ∈ piecesFrom separator skip piece cs, ¬ separator <:+: found := by
  -- a separator within the piece begins there, whatever follows the piece
  have apart {piece rest : List Char}
      (none : ∀ part ≠ [], part <:+ piece.reverse → ¬ separator <+: part ++ rest) :
      ¬ separator <:+: piece.reverse := by
    rintro ⟨before, behind, whole⟩
    refine none (separator ++ behind) (by simp [filled]) ⟨before, by rw [← whole]; simp⟩ ?_
    exact ⟨behind ++ rest, by simp⟩
  fun_induction piecesFrom separator skip piece cs with
  | case1 skip piece =>
    intro found mem
    obtain rfl := List.mem_singleton.mp mem
    exact apart none
  | case2 skip piece c rest ih => exact ih none
  | case3 piece c rest begins ih =>
    intro found mem
    rcases List.mem_cons.mp mem with rfl | mem
    · exact apart none
    · exact ih (fun part filled suffix => absurd (List.suffix_nil.mp suffix) filled) found mem
  | case4 piece c rest other ih =>
    refine ih fun part filled' suffix begins => ?_
    rw [List.reverse_cons, List.suffix_concat_iff] at suffix
    obtain rfl | ⟨shorter, rfl, suffix⟩ := suffix
    · exact filled' rfl
    · rw [List.drop_zero, List.append_assoc, List.singleton_append] at begins
      by_cases empty : shorter = []
      · rw [empty] at begins
        exact other (List.isPrefixOf_iff_prefix.mpr begins)
      · exact none shorter empty suffix begins

theorem not_infix_of_mem_piecesOn {separator : List Char} (filled : separator ≠ [])
    {found : List Char} (mem : found ∈ piecesOn separator cs) : ¬ separator <:+: found :=
  not_infix_of_mem_piecesFrom filled 0 [] cs
    (fun _ filled suffix => absurd (List.suffix_nil.mp suffix) filled) found mem

end Pieces

/-! ### Cutting at all delimiters in turn -/

section Holding
variable {delimiters : List String} {delimiter : String} {cs before behind : List Char}
  {tokens texts : List String}

theorem HoldsTokens.behind_blanks (front : IsBlanks before)
    (holds : HoldsTokens delimiters cs tokens) : HoldsTokens delimiters (before ++ cs) tokens := by
  induction holds with
  | blanks blanks => exact .blanks (front.append blanks)
  | token token front' back =>
    rw [← List.append_assoc]
    exact .token token (front.append front') back
  | parted left listed filled right ih _ =>
    rw [← List.append_assoc]
    exact .parted ih listed filled right

theorem HoldsTokens.before_blanks (back : IsBlanks behind)
    (holds : HoldsTokens delimiters cs tokens) : HoldsTokens delimiters (cs ++ behind) tokens := by
  induction holds with
  | blanks blanks => exact .blanks (blanks.append back)
  | token token front back' =>
    rw [List.append_assoc, List.append_assoc]
    exact .token token front (back'.append back)
  | parted left listed filled right _ ih =>
    rw [List.append_assoc, List.append_assoc]
    exact .parted left listed filled ih

/-- A text holds what its tokens hold. -/
theorem HoldsTokens.flatMap {f : String → List String} (holds : HoldsTokens delimiters cs tokens)
    (each : ∀ token ∈ tokens, HoldsTokens delimiters token.toList (f token)) :
    HoldsTokens delimiters cs (tokens.flatMap f) := by
  induction holds with
  | blanks blanks => exact .blanks blanks
  | token token front back =>
    rw [List.flatMap_singleton]
    exact .behind_blanks front (.before_blanks back (each token (by simp)))
  | parted left listed filled right ih ih' =>
    obtain ⟨first, second⟩ := List.forall_mem_append.mp each
    rw [List.flatMap_append]
    exact .parted (ih first) listed filled (ih' second)

theorem HoldsTokens.infix_of_mem (holds : HoldsTokens delimiters cs tokens) :
    ∀ token ∈ tokens, token.toList <:+: cs := by
  induction holds with
  | blanks => simp
  | token token =>
    intro found mem
    obtain rfl := List.mem_singleton.mp mem
    exact ⟨_, _, by rw [List.append_assoc]⟩
  | parted _ _ _ _ ih ih' =>
    refine List.forall_mem_append.mpr ⟨fun found mem => ?_, fun found mem => ?_⟩
    · exact (ih found mem).trans (List.prefix_append _ _).isInfix
    · exact (ih' found mem).trans ⟨_, [], by rw [List.append_nil, List.append_assoc]⟩

theorem HoldsTokens.splitAt (listed : delimiter ∈ delimiters) (filled : delimiter ≠ "")
    (holds : HoldsTokens delimiters cs texts) :
    HoldsTokens delimiters cs (splitAt delimiter texts) := by
  rw [splitAt_eq_flatMap]
  exact holds.flatMap fun s _ => holds_piecesFrom listed filled 0 [] s.toList

theorem holds_splitTokens (value : String) (delimiters : List String) :
    HoldsTokens delimiters value.toList (splitTokens value delimiters) := by
  have start : HoldsTokens delimiters value.toList [value] := by
    have whole : HoldsTokens delimiters _ _ := .token value isBlanks_nil isBlanks_nil
    simpa using whole
  refine List.foldlRecOn _ _ start fun texts holds delimiter mem => ?_
  obtain ⟨listed, filled⟩ := List.mem_filter.mp mem
  exact holds.splitAt listed (by simpa using filled)

/-- What a cut gives is trimmed and not empty, is free of the delimiter, and stood in a text. -/
theorem exists_of_mem_splitAt (filled : delimiter ≠ "") {token : String}
    (mem : token ∈ splitAt delimiter texts) :
    IsToken [delimiter] token ∧ ∃ s ∈ texts, token.toList <:+: s.toList := by
  rw [splitAt_eq_flatMap] at mem
  obtain ⟨s, hs, mem⟩ := List.mem_flatMap.mp mem
  have holds := holds_piecesFrom (List.mem_singleton_self delimiter) filled 0 [] s.toList
  have within := holds.infix_of_mem token mem
  obtain ⟨visible, piece, found, same⟩ := mem_trimmedPieces.mp mem
  obtain ⟨trimmed, before, behind, -, -, whole⟩ := exists_trimChars piece
  rw [same] at trimmed whole
  refine ⟨⟨visible, trimmed, fun d hd _ inside => ?_⟩, s, hs, within⟩
  obtain rfl := List.mem_singleton.mp hd
  refine not_infix_of_mem_piecesOn (by simpa using filled) found (inside.trans ?_)
  exact ⟨before, behind, by rw [whole, List.append_assoc]⟩

/-- Later cuts and trims bring back nothing that was cut before. -/
theorem not_infix_of_mem_foldl (filled : ∀ d ∈ delimiters, d ≠ "") {token : String}
    (mem : token ∈ delimiters.foldl (fun texts d => CatalogGraph.splitAt d texts) texts) :
    ∀ d ∈ delimiters, ¬ d.toList <:+: token.toList := by
  induction delimiters using List.reverseRecOn generalizing token with
  | nil => simp
  | append_singleton earlier last ih =>
    obtain ⟨earlierFilled, lastFilled⟩ := List.forall_mem_append.mp filled
    rw [List.foldl_concat] at mem
    obtain ⟨isToken, s, hs, within⟩ := exists_of_mem_splitAt (lastFilled last (by simp)) mem
    refine List.forall_mem_append.mpr ⟨fun d hd inside => ?_, fun d hd => ?_⟩
    · exact ih earlierFilled hs d hd (inside.trans within)
    · exact isToken.whole d hd (lastFilled d hd)

theorem isToken_of_mem_splitTokens {value token : String} (some : ∃ d ∈ delimiters, d ≠ "")
    (mem : token ∈ splitTokens value delimiters) : IsToken delimiters token := by
  have filled : ∀ d ∈ delimiters.filter (· ≠ ""), d ≠ "" := by simp
  have none := not_infix_of_mem_foldl filled mem
  -- the last cut has trimmed the tokens
  obtain ⟨earlier, last, split⟩ : ∃ earlier last,
      delimiters.filter (· ≠ "") = earlier ++ [last] := by
    obtain ⟨d, hd, visible⟩ := some
    refine (List.eq_nil_or_concat' _).resolve_left (List.ne_nil_of_mem (a := d) ?_)
    simp [hd, visible]
  rw [splitTokens, split, List.foldl_concat] at mem
  have listed : last ∈ delimiters.filter (· ≠ "") := by
    rw [split]
    exact List.mem_concat_self
  obtain ⟨isToken, -⟩ := exists_of_mem_splitAt (filled last listed) mem
  exact ⟨isToken.filled, isToken.trimmed, fun d hd visible => none d (by simp [hd, visible])⟩

end Holding

/-! ### Cutting once -/

section Once
variable {cuts : Char → Bool} {cs cs' : List Char}

/-- Texts without a cut, and texts with a cut between two texts, are all texts. -/
theorem cut_induction {motive : List Char → Prop} (cuts : Char → Bool)
    (uncut : ∀ cs, (∀ c ∈ cs, cuts c = false) → motive cs)
    (cut : ∀ cs c cs', cuts c = true → motive cs → motive cs' → motive (cs ++ c :: cs'))
    (cs : List Char) : motive cs := by
  induction length : cs.length using Nat.strongRecOn generalizing cs with
  | ind n ih =>
    by_cases whole : ∀ c ∈ cs, cuts c = false
    · exact uncut cs whole
    · push Not at whole
      obtain ⟨c, mem, cutting⟩ := whole
      obtain ⟨before, behind, rfl⟩ := List.append_of_mem mem
      rw [List.length_append, List.length_cons] at length
      exact cut before c behind (by simpa using cutting) (ih _ (by omega) before rfl)
        (ih _ (by omega) behind rfl)

/-- A text is cut wherever a character of the kind stands. -/
theorem tokensAt_append {c : Char} (cut : cuts c = true) :
    tokensAt cuts (cs ++ c :: cs') = tokensAt cuts cs ++ tokensAt cuts cs' := by
  rw [tokensAt, List.splitOnP_append_cons _ _ cut, trimmedPieces_append]
  rfl

theorem tokensAt_of_uncut (uncut : ∀ c ∈ cs, cuts c = false) :
    tokensAt cuts cs = trimmedPieces [cs] := by
  rw [tokensAt, List.splitOnP_eq_singleton uncut]

theorem tokensAt_blanks (blanks : IsBlanks cs) : tokensAt cuts cs = [] := by
  induction cs using cut_induction cuts with
  | uncut cs uncut => rw [tokensAt_of_uncut uncut, trimmedPieces_blanks blanks]
  | cut cs c cs' cut ih ih' =>
    obtain ⟨left, right⟩ := List.forall_mem_append.mp blanks
    rw [tokensAt_append cut, ih left, ih' (List.forall_mem_cons.mp right).2]
    rfl

theorem tokensAt_token {before behind token : List Char} (filled : token ≠ [])
    (trimmed : IsTrimmed token) (whole : ∀ c ∈ token, cuts c = false) (front : IsBlanks before)
    (back : IsBlanks behind) :
    tokensAt cuts (before ++ (token ++ behind)) = [String.ofList token] := by
  induction before using cut_induction cuts with
  | cut before c before' cut _ ih =>
    obtain ⟨left, right⟩ := List.forall_mem_append.mp front
    rw [List.append_assoc, List.cons_append, tokensAt_append cut, tokensAt_blanks left,
      ih (List.forall_mem_cons.mp right).2, List.nil_append]
  | uncut before uncut =>
    induction behind using cut_induction cuts with
    | cut behind c behind' cut ih _ =>
      obtain ⟨left, right⟩ := List.forall_mem_append.mp back
      rw [← List.append_assoc, ← List.append_assoc, List.append_assoc before, tokensAt_append cut,
        ih left, tokensAt_blanks (List.forall_mem_cons.mp right).2, List.append_nil]
    | uncut behind uncut' =>
      have trim := trimmed.trimChars_within front back
      rw [tokensAt_of_uncut, trimmedPieces_single (by rwa [trim]), trim]
      simpa [or_imp, forall_and] using ⟨uncut, whole, uncut'⟩

/-- A text that is cut into tokens at single characters can be cut there at once. -/
theorem HoldsTokens.eq_tokensAt {delimiters tokens : List String}
    (single : ∀ d ∈ delimiters, d ≠ "" → ∃ c, d.toList = [c] ∧ cuts c = true)
    (holds : HoldsTokens delimiters cs tokens)
    (proper : ∀ token ∈ tokens, token ≠ "" ∧ IsTrimmed token.toList ∧
      ∀ c ∈ token.toList, cuts c = false) : tokens = tokensAt cuts cs := by
  induction holds with
  | blanks blanks => exact (tokensAt_blanks blanks).symm
  | token token front back =>
    obtain ⟨filled, trimmed, whole⟩ := proper token (by simp)
    rw [tokensAt_token (by simpa using filled) trimmed whole front back, String.ofList_toList]
  | parted left listed filled right ih ih' =>
    obtain ⟨c, one, cut⟩ := single _ listed filled
    obtain ⟨first, second⟩ := List.forall_mem_append.mp proper
    rw [one, List.singleton_append, tokensAt_append cut, ← ih first, ← ih' second]

end Once

/-- Whether a character is one of the delimiters. -/
def isDelimiter (delimiters : List String) (c : Char) : Bool :=
  delimiters.contains (String.singleton c)

theorem splitTokens_eq_tokensAt {delimiters : List String} (some : ∃ d ∈ delimiters, d ≠ "")
    (single : ∀ d ∈ delimiters, d ≠ "" → d.length = 1) (value : String) :
    splitTokens value delimiters = tokensAt (isDelimiter delimiters) value.toList := by
  refine (holds_splitTokens value delimiters).eq_tokensAt (fun d hd filled => ?_)
    fun token mem => ?_
  · obtain ⟨c, one⟩ := List.length_eq_one_iff.mp
      (String.length_toList.trans (single d hd filled))
    have same : String.singleton c = d :=
      String.toList_inj.mp (by rw [one, String.toList_singleton])
    exact ⟨c, one, by simpa [isDelimiter, same] using hd⟩
  · obtain ⟨filled, trimmed, whole⟩ := isToken_of_mem_splitTokens some mem
    refine ⟨filled, trimmed, fun c hc => ?_⟩
    by_contra cut
    have listed : String.singleton c ∈ delimiters := by simpa [isDelimiter] using cut
    refine whole _ listed (by simp) ?_
    obtain ⟨before, behind, same⟩ := List.append_of_mem hc
    exact ⟨before, behind, by simp [same]⟩

/-- The tokens of a value are trimmed, are not empty and hold no delimiter, and nothing but
delimiters and white space stands between and around them. If every delimiter is one character, the
tokens are those of one cut at all of them, in whatever order they are listed. -/
theorem tokens_cut_at_delimiters (value : String) (delimiters : List String)
    (some : ∃ d ∈ delimiters, d ≠ "") :
    (∀ token ∈ splitTokens value delimiters, IsToken delimiters token) ∧
      HoldsTokens delimiters value.toList (splitTokens value delimiters) ∧
      ((∀ d ∈ delimiters, d ≠ "" → d.length = 1) →
        splitTokens value delimiters = tokensAt (isDelimiter delimiters) value.toList ∧
        ∀ other : List String, (∀ d, d ∈ other ↔ d ∈ delimiters) →
          splitTokens value other = splitTokens value delimiters) := by
  refine ⟨fun token mem => isToken_of_mem_splitTokens some mem, holds_splitTokens value delimiters,
    fun single => ⟨splitTokens_eq_tokensAt some single value, fun other same => ?_⟩⟩
  have kinds : isDelimiter other = isDelimiter delimiters := by
    funext c
    simp [isDelimiter, same]
  rw [splitTokens_eq_tokensAt some single, splitTokens_eq_tokensAt, kinds]
  · simpa only [same] using some
  · simpa only [same] using single

/-- Headings under two delimiters, one of them longer than a character, and words under a mark and
a blank in either order. -/
theorem headings_cut_at_delimiters :
    (∃ d ∈ [";", "--"], d ≠ "") ∧ (∃ d ∈ ["", ";", " "], d ≠ "") ∧
      (∀ token ∈ ["Whales", "Fiction", "Sea stories"], IsToken [";", "--"] token) ∧
      HoldsTokens [";", "--"] "Whales -- Fiction; Sea stories;;".toList
        ["Whales", "Fiction", "Sea stories"] ∧
      tokensAt (isDelimiter ["", ";", " "]) " sea ; ice;".toList = ["sea", "ice"] ∧
      splitTokens " sea ; ice;" [" ", "", ";"] = ["sea", "ice"] := by
  have headings : splitTokens "Whales -- Fiction; Sea stories;;" [";", "--"] =
      ["Whales", "Fiction", "Sea stories"] := by decide +kernel
  have words : splitTokens " sea ; ice;" ["", ";", " "] = ["sea", "ice"] := by decide +kernel
  have listed : ∃ d ∈ [";", "--"], d ≠ "" := by decide
  have listed' : ∃ d ∈ ["", ";", " "], d ≠ "" := by decide
  obtain ⟨proper, held, -⟩ := tokens_cut_at_delimiters "Whales -- Fiction; Sea stories;;" _ listed
  obtain ⟨-, -, once⟩ := tokens_cut_at_delimiters " sea ; ice;" _ listed'
  obtain ⟨same, ordered⟩ := once (by decide)
  rw [headings] at proper held
  rw [words] at same ordered
  exact ⟨listed, listed', proper, held, same.symm, ordered [" ", "", ";"] (by simp; tauto)⟩

end CatalogGraph
