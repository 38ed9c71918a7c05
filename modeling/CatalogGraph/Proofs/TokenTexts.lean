import CatalogGraph.Text.Numeral
import CatalogGraph.XPath.Token
import Mathlib.Data.List.TakeWhile

/-!
Texts of tokens: a text is cut into tokens exactly if it spells them one after another, with white
space where it pleases and where two words would run together without it.
-/
namespace CatalogGraph.XPath

/-- A name without a prefix. -/
def isName : List Char → Bool
  | [] => false
  | c :: rest => isNameStart c && rest.all isNameChar

/-- A name, or a prefix and a name or a star. -/
def IsWholeName (word : List Char) : Prop :=
  isName word ∨ ∃ p l, isName p ∧ (isName l ∨ l = ['*']) ∧ word = p ++ ':' :: l

/-- A word spells a token. -/
def Token.IsWord : Token → List Char → Prop
  | .slash, word => word = ['/']
  | .doubleSlash, word => word = ['/', '/']
  | .dot, word => word = ['.']
  | .doubleDot, word => word = ['.', '.']
  | .at, word => word = ['@']
  | .star, word => word = ['*']
  | .openBracket, word => word = ['[']
  | .closeBracket, word => word = [']']
  | .openParenthesis, word => word = ['(']
  | .closeParenthesis, word => word = [')']
  | .equals, word => word = ['=']
  | .differs, word => word = ['!', '=']
  | .literal text, word =>
    ∃ quote, (quote = '\'' ∨ quote = '"') ∧ quote ∉ text.toList ∧
      word = quote :: text.toList ++ [quote]
  | .number n, word =>
    word ≠ [] ∧ (∀ c ∈ word, c.isDigit) ∧ decimalValue word = n ∧ n < positionBound
  | .name text, word => word = text.toList ∧ IsWholeName word

/-- What follows a word does not belong to it. -/
def Token.endsBefore : Token → List Char → Bool
  | .slash, rest => rest.head? != some '/'
  | .dot, rest => rest.head? != some '.'
  | .number _, rest => !rest.head?.any Char.isDigit
  | .name text, rest => text.toList.getLast? == some '*' || !rest.head?.any isNameChar
  | _, _ => true

/-- A text spells tokens, with white space in front of them, between them and behind them. -/
inductive Spells : List Token → List Char → Prop
  | nothing : Spells [] []
  | space {c : Char} {rest : List Char} {ts : List Token} (blank : isSpace c)
    (more : Spells ts rest) : Spells ts (c :: rest)
  | token {t : Token} {word rest : List Char} {ts : List Token} (spelled : t.IsWord word)
    (apart : t.endsBefore rest) (more : Spells ts rest) : Spells (t :: ts) (word ++ rest)

section Characters

/-- The characters that are signs or begin signs. -/
def signs : List Char := ['/', '.', '!', '@', '*', '[', ']', '(', ')', '=']

/-- The characters that stand in front of no token: a colon and white space. -/
def gaps : List Char := [':', ' ', '\t', '\n', '\r']

theorem isNameStart_not_sign (c : Char) (hc : c ∈ signs ++ gaps) : isNameStart c = false := by
  have none : (signs ++ gaps).all (fun c => !isNameStart c) := by decide
  simpa using List.all_eq_true.mp none c hc

theorem isDigit_not_sign (c : Char) (hc : c ∈ signs ++ gaps) : c.isDigit = false := by
  have none : (signs ++ gaps).all (fun c => !c.isDigit) := by decide
  simpa using List.all_eq_true.mp none c hc

theorem not_isNameChar_colon : isNameChar ':' = false := by decide

theorem isSpace_iff {c : Char} : isSpace c ↔ c ∈ [' ', '\t', '\n', '\r'] := by
  simp [isSpace, or_assoc]

theorem isDigit_iff {c : Char} : c.isDigit ↔ 48 ≤ c.toNat ∧ c.toNat ≤ 57 := by
  simp [Char.isDigit, UInt32.le_iff_toNat_le]

theorem not_isNameStart_of_isDigit {c : Char} (digit : c.isDigit) : isNameStart c = false := by
  have bounds := isDigit_iff.mp digit
  have low : c.toNat < 0x80 := by omega
  have underscore : c ≠ '_' := by
    rintro rfl
    cases digit
  have letter : c.isAlpha = false := by
    change (decide (65 ≤ c.val ∧ c.val ≤ 90) ||
      decide (97 ≤ c.val) && decide (c.val ≤ 122)) = false
    rw [Bool.eq_false_iff, ne_eq]
    simp only [Bool.or_eq_true, Bool.and_eq_true, decide_eq_true_eq, UInt32.le_iff_toNat_le]
    change ¬((65 ≤ c.toNat ∧ c.toNat ≤ 90) ∨ (97 ≤ c.toNat ∧ c.toNat ≤ 122))
    omega
  simp [isNameStart, Text.isAlphabetic, low, letter, underscore]

end Characters

section Words
variable {t : Token} {word rest cs : List Char} {c : Char}

theorem isName_cons : isName (c :: rest) ↔ isNameStart c ∧ ∀ d ∈ rest, isNameChar d := by
  simp [isName]

theorem IsWholeName.head (whole : IsWholeName word) :
    ∃ c rest, word = c :: rest ∧ isNameStart c := by
  have first {p : List Char} (name : isName p) : ∃ c rest, p = c :: rest ∧ isNameStart c := by
    cases p with
    | nil => cases name
    | cons c rest => exact ⟨c, rest, rfl, (isName_cons.mp name).1⟩
  rcases whole with name | ⟨p, l, name, _, rfl⟩
  · exact first name
  · obtain ⟨c, rest, rfl, start⟩ := first name
    exact ⟨c, rest ++ ':' :: l, rfl, start⟩

/-- Every word has a first character, which is neither white space nor a colon. -/
theorem Token.IsWord.head (spelled : t.IsWord word) :
    ∃ c rest, word = c :: rest ∧ isSpace c = false ∧ c ≠ ':' := by
  have other {p : Char → Bool} (apart : ∀ c ∈ signs ++ gaps, p c = false)
      {c : Char} (hc : p c) : isSpace c = false ∧ c ≠ ':' := by
    constructor
    · rw [Bool.eq_false_iff, ne_eq, isSpace_iff]
      intro hm
      simp [apart c (List.mem_append_right _ (List.mem_cons_of_mem _ hm))] at hc
    · rintro rfl
      simp [apart ':' (by simp [gaps])] at hc
  cases t with
  | literal text =>
    obtain ⟨quote, rfl | rfl, _, rfl⟩ := spelled
    · exact ⟨_, _, rfl, rfl, by decide⟩
    · exact ⟨_, _, rfl, rfl, by decide⟩
  | number n =>
    obtain ⟨filled, digits, _⟩ := spelled
    obtain ⟨c, rest, rfl⟩ := List.exists_cons_of_ne_nil filled
    exact ⟨c, rest, rfl, other isDigit_not_sign (digits c (by simp))⟩
  | name text =>
    obtain ⟨c, rest, rfl, start⟩ := spelled.2.head
    exact ⟨c, rest, rfl, other isNameStart_not_sign start⟩
  | _ =>
    obtain rfl := spelled
    exact ⟨_, _, rfl, rfl, by decide⟩

/-- A stretch of characters ends where the first one of another kind stands. -/
theorem stretch_append {p : Char → Bool} (kind : ∀ c ∈ word, p c)
    (other : rest.head?.any p = false) :
    (word ++ rest).takeWhile p = word ∧ (word ++ rest).dropWhile p = rest := by
  have none : rest.takeWhile p = [] ∧ rest.dropWhile p = rest := by
    cases rest with
    | nil => exact ⟨rfl, rfl⟩
    | cons c rest =>
      have first : p c = false := by simpa using other
      simp [first]
  rw [List.takeWhile_append_of_pos kind, List.dropWhile_append_of_pos kind, none.1, none.2]
  simp

theorem head_dropWhile (p : Char → Bool) (cs : List Char) :
    (cs.dropWhile p).head?.any p = false := by
  have first := List.head?_dropWhile_not p cs
  cases rest : (cs.dropWhile p).head? with
  | none => rfl
  | some c => simpa [rest] using first

theorem scanToken_of_not_sign (other : c ∉ signs) : scanToken c cs = scanWord c cs := by
  simp only [signs, List.mem_cons, List.not_mem_nil, or_false, not_or] at other
  unfold scanToken
  split <;> simp_all

theorem scanWord_literal {text : List Char} (quote : c = '\'' ∨ c = '"') (free : c ∉ text) :
    scanWord c (text ++ c :: rest) = .ok (.literal (String.ofList text), rest) := by
  have kind : ∀ d ∈ text, decide (d ≠ c) = true := by
    intro d hd
    simpa using fun same : d = c => free (same ▸ hd)
  have ends : (c :: rest).head?.any (fun d => decide (d ≠ c)) = false := by simp
  obtain ⟨taken, left⟩ := stretch_append kind ends
  unfold scanWord
  rw [if_pos (by simpa using quote), left, taken]

theorem scanWord_number (digits : ∀ d ∈ c :: word, d.isDigit)
    (bounded : decimalValue (c :: word) < positionBound)
    (ends : rest.head?.any Char.isDigit = false) :
    scanWord c (word ++ rest) = .ok (.number (decimalValue (c :: word)), rest) := by
  have digit := digits c (by simp)
  have quote : ¬(c = '\'' ∨ c = '"') := by
    rintro (rfl | rfl)
    · cases digit
    · cases digit
  have more : ∀ d ∈ word, d.isDigit := fun d hd => digits d (by simp [hd])
  obtain ⟨taken, left⟩ := stretch_append more ends
  unfold scanWord
  rw [if_neg (by simpa using quote), if_pos digit, taken, left, if_pos bounded]

theorem scanWord_name (start : isNameStart c) : scanWord c cs = scanName c cs := by
  have quote : ¬(c = '\'' ∨ c = '"') := by
    rintro (rfl | rfl)
    · revert start
      decide
    · revert start
      decide
  have digit : ¬ c.isDigit := fun digit => by
    rw [not_isNameStart_of_isDigit digit] at start
    cases start
  unfold scanWord
  rw [if_neg (by simpa using quote), if_neg digit, if_pos start]

theorem scanName_bare (name : isName (c :: word)) (ends : rest.head?.any isNameChar = false)
    (colon : rest.head? ≠ some ':') :
    scanName c (word ++ rest) = .ok (.name (String.ofList (c :: word)), rest) := by
  obtain ⟨taken, left⟩ := stretch_append (isName_cons.mp name).2 ends
  unfold scanName
  simp only [taken, left]
  split <;> simp_all

theorem scanName_prefixed {d : Char} {l : List Char} (name : isName (c :: word))
    (localName : isName (d :: l)) (ends : rest.head?.any isNameChar = false) :
    scanName c (word ++ ':' :: d :: l ++ rest) =
      .ok (.name (String.ofList (c :: word ++ ':' :: d :: l)), rest) := by
  have colon : (':' :: d :: l ++ rest).head?.any isNameChar = false := not_isNameChar_colon
  obtain ⟨taken, left⟩ := stretch_append (isName_cons.mp name).2 colon
  obtain ⟨start, kind⟩ := isName_cons.mp localName
  obtain ⟨taken', left'⟩ := stretch_append kind ends
  have notStar : d ≠ '*' := by
    rintro rfl
    revert start
    decide
  unfold scanName
  simp only [List.append_assoc, taken, left]
  simp [start, taken', left']

theorem scanName_star (name : isName (c :: word)) :
    scanName c (word ++ ':' :: '*' :: rest) =
      .ok (.name (String.ofList (c :: word ++ [':', '*'])), rest) := by
  have colon : (':' :: '*' :: rest).head?.any isNameChar = false := not_isNameChar_colon
  obtain ⟨taken, left⟩ := stretch_append (isName_cons.mp name).2 colon
  unfold scanName
  simp only [taken, left]

theorem last_of_isName (name : isName word) : word.getLast? ≠ some '*' := by
  intro last
  have star := List.mem_of_getLast? last
  cases word with
  | nil => cases star
  | cons c rest =>
    obtain ⟨start, kind⟩ := isName_cons.mp name
    rcases List.mem_cons.mp star with rfl | star
    · revert start
      decide
    · have := kind _ star
      revert this
      decide

theorem scanName_of_isWholeName (whole : IsWholeName (c :: word))
    (apart : (Token.name (String.ofList (c :: word))).endsBefore rest)
    (colon : rest.head? ≠ some ':') :
    scanName c (word ++ rest) = .ok (.name (String.ofList (c :: word)), rest) := by
  rw [Token.endsBefore, String.toList_ofList] at apart
  rcases whole with name | ⟨p, l, name, either, same⟩
  · have ends : rest.head?.any isNameChar = false := by simpa [last_of_isName name] using apart
    exact scanName_bare name ends colon
  · obtain ⟨c', p, rfl⟩ := List.exists_cons_of_ne_nil (l := p) (by rintro rfl; cases name)
    obtain ⟨rfl, rfl⟩ := List.cons.inj same
    rcases either with localName | rfl
    · obtain ⟨d, l, rfl⟩ := List.exists_cons_of_ne_nil (l := l) (by rintro rfl; cases localName)
      have last : (c :: (p ++ ':' :: d :: l)).getLast? ≠ some '*' := by
        have behind : c :: (p ++ ':' :: d :: l) = (c :: p ++ [':']) ++ (d :: l) := by simp
        rw [behind, List.getLast?_append, Option.or_of_isSome (by simp)]
        exact last_of_isName localName
      have ends : rest.head?.any isNameChar = false := by simpa [last] using apart
      exact scanName_prefixed name localName ends
    · change scanName c (p ++ [':', '*'] ++ rest) = _
      rw [List.append_assoc]
      exact scanName_star name

/-- The token of a word is found if what follows does not belong to the word. -/
theorem scanToken_of_isWord (spelled : t.IsWord (c :: word)) (apart : t.endsBefore rest)
    (colon : rest.head? ≠ some ':') : scanToken c (word ++ rest) = .ok (t, rest) := by
  cases t with
  | literal text =>
    obtain ⟨quote, either, free, same⟩ := spelled
    obtain ⟨rfl, rfl⟩ := List.cons.inj same
    have other : c ∉ signs := by rcases either with rfl | rfl <;> decide
    change scanToken c (text.toList ++ [c] ++ rest) = _
    rw [scanToken_of_not_sign other, List.append_assoc, List.singleton_append,
      scanWord_literal either free, String.ofList_toList]
  | number n =>
    obtain ⟨_, digits, rfl, bounded⟩ := spelled
    have other : c ∉ signs := fun hm => by
      simp [isDigit_not_sign c (List.mem_append_left _ hm)] at digits
    have ends : rest.head?.any Char.isDigit = false := by simpa [Token.endsBefore] using apart
    rw [scanToken_of_not_sign other, scanWord_number digits bounded ends]
  | name text =>
    obtain ⟨same, whole⟩ := spelled
    obtain ⟨c', _, same', start⟩ := whole.head
    obtain ⟨rfl, rfl⟩ := List.cons.inj same'
    have other : c ∉ signs := fun hm => by
      simp [isNameStart_not_sign c (List.mem_append_left _ hm)] at start
    have text : text = String.ofList (c :: word) := by rw [same, String.ofList_toList]
    subst text
    rw [scanToken_of_not_sign other, scanWord_name start]
    exact scanName_of_isWholeName whole apart colon
  | _ =>
    obtain ⟨rfl, rfl⟩ := List.cons.inj spelled
    unfold scanToken
    split <;> simp_all [Token.endsBefore]

theorem isWord_of_scanName (start : isNameStart c) (found : scanName c cs = .ok (t, rest)) :
    ∃ word, cs = word ++ rest ∧ t.IsWord (c :: word) ∧ t.endsBefore rest := by
  have name : isName (c :: cs.takeWhile isNameChar) :=
    isName_cons.mpr ⟨start, fun d hd => List.mem_takeWhile_imp hd⟩
  have parts : cs = cs.takeWhile isNameChar ++ cs.dropWhile isNameChar :=
    List.takeWhile_append_dropWhile.symm
  unfold scanName at found
  simp only at found
  split at found
  next left hs =>
    cases found
    refine ⟨cs.takeWhile isNameChar ++ [':', '*'], ?_, ⟨by simp, ?_⟩, ?_⟩
    · rw [hs] at parts
      simpa using parts
    · exact .inr ⟨_, ['*'], name, .inr rfl, rfl⟩
    · have behind : c :: cs.takeWhile isNameChar ++ [':', '*'] =
          (c :: cs.takeWhile isNameChar ++ [':']) ++ ['*'] := by simp
      rw [Token.endsBefore, String.toList_ofList, behind, List.getLast?_concat]
      rfl
  next d left _ hs =>
    split at found
    next start' =>
      cases found
      have localName : isName (d :: left.takeWhile isNameChar) :=
        isName_cons.mpr ⟨start', fun e he => List.mem_takeWhile_imp he⟩
      refine ⟨cs.takeWhile isNameChar ++ ':' :: d :: left.takeWhile isNameChar, ?_,
        ⟨by simp, .inr ⟨_, _, name, .inl localName, rfl⟩⟩, ?_⟩
      · rw [hs] at parts
        simpa using parts
      · simp [Token.endsBefore, head_dropWhile]
    next => cases found
  next => cases found
  next =>
    cases found
    refine ⟨cs.takeWhile isNameChar, parts, ⟨by simp, .inl name⟩, ?_⟩
    simp [Token.endsBefore, head_dropWhile]

theorem isWord_of_scanWord (found : scanWord c cs = .ok (t, rest)) :
    ∃ word, cs = word ++ rest ∧ t.IsWord (c :: word) ∧ t.endsBefore rest := by
  unfold scanWord at found
  split at found
  next quote =>
    have parts : cs = cs.takeWhile (· ≠ c) ++ cs.dropWhile (· ≠ c) :=
      List.takeWhile_append_dropWhile.symm
    split at found
    next d left hs =>
      cases found
      have same : d = c := by
        have first := head_dropWhile (· ≠ c) cs
        rw [hs] at first
        simpa using first
      subst same
      rw [hs] at parts
      have free : d ∉ cs.takeWhile (· ≠ d) := fun hm => by simpa using List.mem_takeWhile_imp hm
      refine ⟨cs.takeWhile (· ≠ d) ++ [d], by simpa using parts, ⟨d, by simpa using quote, ?_⟩, rfl⟩
      simpa using free
    next => cases found
  next =>
    split at found
    next digit =>
      split at found
      next bounded =>
        cases found
        refine ⟨cs.takeWhile Char.isDigit, List.takeWhile_append_dropWhile.symm,
          ⟨by simp, ?_, rfl, bounded⟩, by simp [Token.endsBefore, head_dropWhile]⟩
        intro d hd
        rcases List.mem_cons.mp hd with rfl | hd
        · exact digit
        · exact List.mem_takeWhile_imp hd
      next => cases found
    next =>
      split at found
      next start => exact isWord_of_scanName start found
      next => cases found

theorem other_head {d : Char} (single : ∀ more, cs = d :: more → False) : cs.head? ≠ some d := by
  intro first
  obtain ⟨more, rfl⟩ := List.head?_eq_some_iff.mp first
  exact single more rfl

theorem isWord_of_scanToken (found : scanToken c cs = .ok (t, rest)) :
    ∃ word, cs = word ++ rest ∧ t.IsWord (c :: word) ∧ t.endsBefore rest := by
  unfold scanToken at found
  split at found
  case h_14 => exact isWord_of_scanWord found
  case h_2 single =>
    cases found
    exact ⟨[], rfl, rfl, by simpa [Token.endsBefore] using other_head single⟩
  case h_4 single =>
    cases found
    exact ⟨[], rfl, rfl, by simpa [Token.endsBefore] using other_head single⟩
  case h_6 => cases found
  case h_1 | h_3 | h_5 =>
    cases found
    exact ⟨[_], rfl, rfl, rfl⟩
  all_goals
    cases found
    exact ⟨[], rfl, rfl, rfl⟩

end Words

theorem tokenize_nil : tokenize [] = .ok [] := by
  rw [tokenize]

theorem tokenize_space {c : Char} (blank : isSpace c) (cs : List Char) :
    tokenize (c :: cs) = tokenize cs := by
  rw [tokenize, if_pos blank]

theorem tokenize_token {c : Char} {cs rest : List Char} {t : Token} (other : isSpace c = false)
    (found : scanToken c cs = .ok (t, rest)) :
    tokenize (c :: cs) = (tokenize rest).map (t :: ·) := by
  rw [tokenize, if_neg (by simp [other])]
  split
  next found' =>
    rw [found] at found'
    cases found'
    rfl
  next failed =>
    rw [found] at failed
    cases failed

theorem Spells.no_colon {ts : List Token} {cs : List Char} (spells : Spells ts cs) :
    cs.head? ≠ some ':' := by
  cases spells with
  | nothing => simp
  | space blank _ =>
    rintro ⟨⟩
    cases blank
  | token spelled _ _ =>
    obtain ⟨c, rest, rfl, _, colon⟩ := spelled.head
    simpa using colon

theorem tokenize_of_spells {ts : List Token} {cs : List Char} (spells : Spells ts cs) :
    tokenize cs = .ok ts := by
  induction spells with
  | nothing => exact tokenize_nil
  | space blank _ ih => rw [tokenize_space blank, ih]
  | @token t word rest ts spelled apart more ih =>
    obtain ⟨c, word, rfl, other, _⟩ := spelled.head
    have found := scanToken_of_isWord spelled apart more.no_colon
    rw [List.cons_append, tokenize_token other found, ih]
    rfl

theorem spells_of_tokenize {ts : List Token} {cs : List Char} (read : tokenize cs = .ok ts) :
    Spells ts cs := by
  induction cs using tokenize.induct generalizing ts with
  | case1 =>
    rw [tokenize_nil] at read
    cases read
    exact .nothing
  | case2 c rest blank ih =>
    rw [tokenize_space blank] at read
    exact .space blank (ih read)
  | case3 c cs other t rest found ih =>
    rw [tokenize_token (by simpa using other) found] at read
    cases more : tokenize rest with
    | error => simp [more, Except.map] at read
    | ok us =>
      rw [more] at read
      cases read
      obtain ⟨word, rfl, spelled, apart⟩ := isWord_of_scanToken found
      exact .token spelled apart (ih more)
  | case4 c cs other fault failed =>
    rw [tokenize, if_neg other] at read
    split at read
    next found =>
      rw [failed] at found
      cases found
    next => cases read

/-- A text has the tokens that it spells, and no others. -/
theorem tokenize_eq_ok_iff {ts : List Token} {cs : List Char} :
    tokenize cs = .ok ts ↔ Spells ts cs :=
  ⟨spells_of_tokenize, tokenize_of_spells⟩

section Blanks
variable {ts us : List Token} {before gap after : List Char}

theorem Spells.blank (blank : ∀ c ∈ gap, isSpace c) (spells : Spells ts after) :
    Spells ts (gap ++ after) := by
  induction gap with
  | nil => exact spells
  | cons c gap ih => exact .space (blank c (by simp)) (ih fun d hd => blank d (by simp [hd]))

theorem endsBefore_blank {c : Char} {rest : List Char} (t : Token) (blank : isSpace c) :
    t.endsBefore (c :: rest) := by
  obtain ⟨slash, dot, digit, name⟩ :
      c ≠ '/' ∧ c ≠ '.' ∧ c.isDigit = false ∧ isNameChar c = false := by
    rcases (by simpa using isSpace_iff.mp blank) with rfl | rfl | rfl | rfl <;> decide
  cases t <;> simp [Token.endsBefore, slash, dot, digit, name]

theorem Spells.append (spells : Spells ts before) (spells' : Spells us after)
    (blank : ∀ c ∈ gap, isSpace c) (apart : gap ≠ []) :
    Spells (ts ++ us) (before ++ gap ++ after) := by
  induction spells with
  | nothing => exact spells'.blank blank
  | space hc _ ih => exact .space hc ih
  | @token t word rest ts spelled ends _ ih =>
    have ends' : t.endsBefore (rest ++ gap ++ after) := by
      cases rest with
      | nil =>
        obtain ⟨c, gap, rfl⟩ := List.exists_cons_of_ne_nil apart
        exact endsBefore_blank t (blank c (by simp))
      | cons c rest => cases t <;> exact ends
    rw [List.cons_append, List.append_assoc, List.append_assoc, ← List.append_assoc rest]
    exact .token spelled ends' ih

/-- White space between two tokens of a text has no meaning. -/
theorem tokenize_blank (first : tokenize before = .ok ts) (second : tokenize after = .ok us)
    (both : tokenize (before ++ after) = .ok (ts ++ us)) (blank : ∀ c ∈ gap, isSpace c) :
    tokenize (before ++ gap ++ after) = .ok (ts ++ us) := by
  cases gap with
  | nil => rwa [List.append_nil]
  | cons c gap =>
    rw [tokenize_eq_ok_iff] at first second ⊢
    exact first.append second blank (List.cons_ne_nil c gap)

end Blanks

section Texts

/-- The quote around a literal: a single one, unless the literal holds one. -/
def quoteOf (text : String) : Char := if '\'' ∈ text.toList then '"' else '\''

/-- The word that is written for a token. -/
def Token.word : Token → List Char
  | .slash => ['/']
  | .doubleSlash => ['/', '/']
  | .dot => ['.']
  | .doubleDot => ['.', '.']
  | .at => ['@']
  | .star => ['*']
  | .openBracket => ['[']
  | .closeBracket => [']']
  | .openParenthesis => ['(']
  | .closeParenthesis => [')']
  | .equals => ['=']
  | .differs => ['!', '=']
  | .literal text => quoteOf text :: text.toList ++ [quoteOf text]
  | .number n => (toString n).toList
  | .name text => text.toList

/-- The text that is written for tokens, with a space where words would run together. -/
def textOf : List Token → List Char
  | [] => []
  | t :: ts => t.word ++ if t.endsBefore (textOf ts) then textOf ts else ' ' :: textOf ts

/-- A token that some word spells. -/
def Token.Spellable (t : Token) : Prop := ∃ word, t.IsWord word

theorem decimalValue_toString (n : Nat) : decimalValue (toString n).toList = n := by
  have digits : (toString n).toList = Nat.toDigits 10 n := Nat.toList_repr
  have value (cs : List Char) : decimalValue cs = Nat.ofDigitChars 10 cs 0 := by
    simp [decimalValue, Nat.ofDigitChars, Nat.mul_comm]
  rw [digits, value, Nat.ofDigitChars_ten_toDigits]

theorem isDigit_of_mem_toString {n : Nat} {c : Char} (hc : c ∈ (toString n).toList) :
    c.isDigit := by
  have digits : (toString n).toList = Nat.toDigits 10 n := Nat.toList_repr
  rw [digits] at hc
  exact Nat.isDigit_of_mem_toDigits (by omega) (by omega) hc

theorem Token.Spellable.word {t : Token} (spellable : t.Spellable) : t.IsWord t.word := by
  obtain ⟨word, spelled⟩ := spellable
  cases t with
  | literal text =>
    obtain ⟨quote, either, free, _⟩ := spelled
    refine ⟨quoteOf text, ?_, ?_, rfl⟩
    · unfold quoteOf
      split <;> simp
    · unfold quoteOf
      split
      next single =>
        rcases either with rfl | rfl
        · exact absurd single free
        · exact free
      next none => exact none
  | number n =>
    obtain ⟨_, _, _, bounded⟩ := spelled
    refine ⟨?_, fun c => isDigit_of_mem_toString, decimalValue_toString n, bounded⟩
    simp [Token.word]
  | name text =>
    obtain ⟨rfl, whole⟩ := spelled
    exact ⟨rfl, whole⟩
  | _ => rfl

theorem Spells.spellable {ts : List Token} {cs : List Char} (spells : Spells ts cs) :
    ∀ t ∈ ts, t.Spellable := by
  induction spells with
  | nothing => simp
  | space _ _ ih => exact ih
  | token spelled _ _ ih => exact List.forall_mem_cons.mpr ⟨⟨_, spelled⟩, ih⟩

theorem spells_textOf {ts : List Token} (spellable : ∀ t ∈ ts, t.Spellable) :
    Spells ts (textOf ts) := by
  induction ts with
  | nil => exact .nothing
  | cons t ts ih =>
    obtain ⟨first, rest⟩ := List.forall_mem_cons.mp spellable
    rw [textOf]
    split
    next apart => exact .token first.word apart (ih rest)
    next => exact .token first.word (endsBefore_blank t rfl) (.space rfl (ih rest))

end Texts

end CatalogGraph.XPath
