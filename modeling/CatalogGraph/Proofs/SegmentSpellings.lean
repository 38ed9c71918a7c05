import CatalogGraph.JsonPath.Path
import CatalogGraph.Proofs.TokenTexts
import CatalogGraph.Proofs.TrimmedTexts
import Mathlib.Algebra.Ring.Int.Defs

/-!
Spellings of the segments of a JSON path: in brackets, with either quote and any white space, or
behind dots. A text that spells segments one after another, from a root or from the current value,
is compiled to these segments.
-/
namespace CatalogGraph.JsonPath
open Text

/-- A key that may stand without quotes. -/
structure IsBare (key : List Char) : Prop where
  filled : key ≠ []
  single : ∀ c ∈ key, endsKey c = false
  last : ∀ c ∈ key.getLast?, isBlank c = false

/-- What stands between brackets for a segment. -/
inductive Segment.Encloses : Segment → List Char → Prop
  | key {name quote} (either : quote = '\'' ∨ quote = '"') (closed : ']' ∉ name.toList) :
      Encloses (.key name) (quote :: (name.toList ++ [quote]))
  | index {n : Int} (bounded : -2 ^ 63 ≤ n ∧ n < 2 ^ 63) : Encloses (.index n) (toString n).toList
  | wildcard : Encloses .wildcard ['*']

/-- The ways in which a segment is written. -/
inductive Segment.Spells : Segment → List Char → Prop
  | bracketed {segment content before behind} (inside : Segment.Encloses segment content)
      (front : IsBlanks before) (back : IsBlanks behind) :
      Spells segment ('[' :: (before ++ (content ++ behind) ++ [']']))
  | dotted {name} (bare : IsBare name.toList) (named : name ≠ "*") :
      Spells (.key name) ('.' :: name.toList)
  | descendant {name} (bare : IsBare name.toList) :
      Spells (.descendant name) ('.' :: '.' :: name.toList)

/-- A text that spells segments one after another. -/
inductive Path.Spells : Path → List Char → Prop
  | nothing : Spells [] []
  | segment {segment path text rest} (first : Segment.Spells segment text)
      (later : Spells path rest) : Spells (segment :: path) (text ++ rest)

/-- The mark of the root, that of the current value, or none. -/
def IsRoot (root : List Char) : Prop := root = ['$'] ∨ root = ['@'] ∨ root = []

/-- The ways in which a path is written: its segments stand behind a root, and a first key may stand
without a dot. -/
inductive Path.Writes : Path → List Char → Prop
  | segments {path root cs} (rooted : IsRoot root) (spelled : Path.Spells path cs) :
      Writes path (root ++ cs)
  | bareKey {name path root cs} (rooted : IsRoot root) (bare : IsBare name.toList)
      (named : name ≠ "*")
      (first : ∀ c ∈ name.toList.head?, c ≠ '$' ∧ c ≠ '@' ∧ isBlank c = false)
      (spelled : Path.Spells path cs) : Writes (.key name :: path) (root ++ (name.toList ++ cs))

/-- A segment that can be written. -/
def Segment.IsWritable : Segment → Prop
  | .key name => ']' ∉ name.toList
  | .index n => -2 ^ 63 ≤ n ∧ n < 2 ^ 63
  | .wildcard => True
  | .descendant name => IsBare name.toList

/-- A segment in brackets, and a descendant behind dots. -/
def Segment.written : Segment → List Char
  | .key name => "['".toList ++ name.toList ++ "']".toList
  | .index n => '[' :: (toString n).toList ++ [']']
  | .wildcard => "[*]".toList
  | .descendant name => "..".toList ++ name.toList

/-- A path from the root. -/
def Path.written (path : Path) : String := String.ofList ('$' :: path.flatMap Segment.written)

/-! ### Numbers -/

theorem natural?_toString (n : Nat) : natural? (toString n).toList = some n := by
  have digits : ∀ c ∈ (toString n).toList, c.isDigit := fun _ => XPath.isDigit_of_mem_toString
  have value := XPath.decimalValue_toString n
  unfold natural?
  rw [if_neg]
  · exact congrArg some value
  · simpa using digits

/-- A number begins with a digit, or with a sign and a digit. -/
theorem toList_toString (n : Int) :
    (∃ m : Nat, n = m ∧ (toString n).toList = (toString m).toList) ∨
      ∃ m : Nat, n = -m ∧ (toString n).toList = '-' :: (toString m).toList := by
  cases n with
  | ofNat m => exact .inl ⟨m, rfl, rfl⟩
  | negSucc m => exact .inr ⟨m + 1, rfl, by simp [Int.toString_eq_repr, Int.repr]⟩

theorem mem_toString {n : Int} {c : Char} (hc : c ∈ (toString n).toList) :
    c = '-' ∨ c.isDigit = true := by
  rcases toList_toString n with ⟨m, -, same⟩ | ⟨m, -, same⟩
  · rw [same] at hc
    exact .inr (XPath.isDigit_of_mem_toString hc)
  · rw [same] at hc
    exact (List.mem_cons.mp hc).imp_right XPath.isDigit_of_mem_toString

theorem integer?_toString {n : Int} (bounded : -2 ^ 63 ≤ n ∧ n < 2 ^ 63) :
    integer? (toString n).toList = some n := by
  have fits : -((UInt64.size / 2 : Nat) : Int) ≤ n ∧ n < ((UInt64.size / 2 : Nat) : Int) := by
    simpa [UInt64.size] using bounded
  unfold integer?
  rcases toList_toString n with ⟨m, rfl, same⟩ | ⟨m, rfl, same⟩
  · have unsigned {sign : Char} {digits : List Char} (text : (toString m).toList = sign :: digits) :
        sign.isDigit = true := XPath.isDigit_of_mem_toString (n := m) (text ▸ List.mem_cons_self)
    rw [same]
    split
    next digits text => exact absurd (unsigned text) (by decide)
    next digits text => exact absurd (unsigned text) (by decide)
    next => simp only [natural?_toString]; simpa using fits
  · rw [same]
    simp only [natural?_toString]
    simpa using fits

/-! ### Segments -/

section Segments
variable {segment : Segment} {content before behind text rest : List Char}

theorem not_blank_of_mem_toString {n : Int} {c : Char} (hc : c ∈ (toString n).toList) :
    isBlank c = false := by
  rcases mem_toString hc with rfl | digit
  · rfl
  · exact not_blank_of_isDigit digit

theorem Segment.Encloses.trimmed (inside : segment.Encloses content) : IsTrimmed content := by
  cases inside with
  | key either =>
    refine ⟨fun c hc => ?_, fun c hc => ?_⟩
    · obtain rfl : _ = c := by simpa using hc
      rcases either with rfl | rfl <;> rfl
    · rw [← List.cons_append, List.getLast?_concat] at hc
      obtain rfl := Option.some.inj hc
      rcases either with rfl | rfl <;> rfl
  | index =>
    exact ⟨fun c hc => not_blank_of_mem_toString (List.mem_of_mem_head? hc),
      fun c hc => not_blank_of_mem_toString (List.mem_of_mem_getLast? hc)⟩
  | wildcard => exact ⟨by simp [isBlank], by simp [isBlank]⟩

theorem Segment.Encloses.closed (inside : segment.Encloses content) : ']' ∉ content := by
  cases inside with
  | key either closed =>
    rcases either with rfl | rfl <;> simpa using closed
  | index =>
    intro mem
    rcases mem_toString mem with sign | digit
    · cases sign
    · contradiction
  | wildcard => decide

theorem unquote?_quoted (quote : Char) (name : List Char) :
    unquote? quote (quote :: (name ++ [quote])) = some name := by
  simp [unquote?]

theorem unquote?_of_not_mem {quote : Char} (none : quote ∉ content) :
    unquote? quote content = Option.none := by
  cases content with
  | nil => rfl
  | cons c rest =>
    rw [unquote?, if_neg]
    rintro ⟨rfl, -⟩
    exact none List.mem_cons_self

/-- White space around the content of brackets does not count. -/
theorem bracketSegment_of_encloses (inside : segment.Encloses content) (front : IsBlanks before)
    (back : IsBlanks behind) :
    bracketSegment (before ++ (content ++ behind)) = .ok segment := by
  have inner := inside.trimmed.trimChars_within front back
  unfold bracketSegment
  rw [inner]
  cases inside with
  | wildcard => rfl
  | @key name quote either =>
    have quoted : quote :: (name.toList ++ [quote]) ≠ ['*'] := by simp
    rw [if_neg quoted]
    rcases either with rfl | rfl
    · simp [unquote?_quoted]
    · have other : unquote? '\'' ('"' :: (name.toList ++ ['"'])) = none := by simp [unquote?]
      simp [other, unquote?_quoted]
  | @index n bounded =>
    have apart {c : Char} (sign : c ≠ '-') (digit : c.isDigit = false) : c ∉ (toString n).toList :=
      fun mem => (mem_toString mem).elim sign (by simp [digit])
    have star : (toString n).toList ≠ ['*'] := fun same =>
      apart (c := '*') (by decide) (by decide) (by rw [same]; simp)
    rw [if_neg star, unquote?_of_not_mem (apart (by decide) (by decide)),
      unquote?_of_not_mem (apart (by decide) (by decide)), integer?_toString bounded]
    rfl

/-- A text behind which a bare key ends. -/
def Opens (rest : List Char) : Prop := ∀ c ∈ rest.head?, endsKey c = true

theorem span_key {key : List Char} (single : ∀ c ∈ key, endsKey c = false) (opens : Opens rest) :
    (key ++ rest).takeWhile (! endsKey ·) = key ∧ (key ++ rest).dropWhile (! endsKey ·) = rest := by
  have all : ∀ c ∈ key, (! endsKey c) = true := fun c hc => by simp [single c hc]
  rw [List.takeWhile_append_of_pos all, List.dropWhile_append_of_pos all]
  cases rest with
  | nil => simp
  | cons c rest => simp [opens c rfl]

theorem keySegment_of_named {name : String} (named : name ≠ "*") :
    keySegment name.toList = .key name := by
  have star : name.toList ≠ ['*'] := fun same => named (String.toList_inj.mp same)
  rw [keySegment, if_neg star, String.ofList_toList]

theorem Segment.Spells.opens (spelled : segment.Spells text) (rest : List Char) :
    Opens (text ++ rest) := by
  intro c hc
  cases spelled <;> (obtain rfl := Option.some.inj hc; rfl)

theorem Segment.Spells.filled (spelled : segment.Spells text) : text ≠ [] := by
  cases spelled <;> simp

/-- A segment is taken from the text in front of the next one. -/
theorem nextSegment_of_spells (spelled : segment.Spells text) (opens : Opens rest) :
    ∃ c cs, text = c :: cs ∧ nextSegment c (cs ++ rest) = .ok (segment, rest) := by
  cases spelled with
  | @bracketed _ content before behind inside front back =>
    have within : ∀ c ∈ before ++ (content ++ behind), decide (c ≠ ']') = true := by
      have blank : isBlank ']' = false := rfl
      intro c hc
      rw [decide_eq_true_eq]
      rintro rfl
      rcases List.mem_append.mp hc with hc | hc
      · simpa [blank] using front _ hc
      rcases List.mem_append.mp hc with hc | hc
      · exact inside.closed hc
      · simpa [blank] using back _ hc
    refine ⟨'[', _, rfl, ?_⟩
    unfold nextSegment
    dsimp only
    rw [if_neg (by decide), if_pos rfl, List.append_assoc, List.dropWhile_append_of_pos within,
      List.takeWhile_append_of_pos within]
    simp [bracketSegment_of_encloses inside front back, Except.map]
  | @dotted name bare named =>
    obtain ⟨taken, dropped⟩ := span_key bare.single opens
    refine ⟨'.', _, rfl, ?_⟩
    unfold nextSegment
    dsimp only
    rw [if_pos rfl]
    split
    next more dots =>
      obtain ⟨c, key, whole⟩ := List.exists_cons_of_ne_nil bare.filled
      rw [whole] at dots
      obtain rfl := (List.cons.inj dots).1
      have := bare.single '.' (by simp [whole])
      contradiction
    next =>
      simp only [taken, dropped, keySegment_of_named named]
      rw [if_neg (by simpa using bare.filled)]
  | @descendant name bare =>
    obtain ⟨taken, dropped⟩ := span_key bare.single opens
    refine ⟨'.', _, rfl, ?_⟩
    unfold nextSegment
    dsimp only [List.cons_append]
    rw [if_pos rfl]
    simp only [taken, dropped, String.ofList_toList]
    rw [if_neg (by simpa using bare.filled)]

end Segments

/-! ### Paths -/

section Paths
variable {path : Path} {root cs rest : List Char}

theorem Path.Spells.opens (spelled : path.Spells cs) : Opens cs := by
  cases spelled with
  | nothing => simp [Opens]
  | segment first => exact first.opens _

theorem segmentsOf_of_spells (spelled : path.Spells cs) : segmentsOf cs = .ok path := by
  induction spelled with
  | nothing => rw [segmentsOf]
  | @segment segment path text rest first later ih =>
    obtain ⟨c, more, rfl, found⟩ := nextSegment_of_spells first later.opens
    rw [List.cons_append, segmentsOf]
    split
    next segment' left found' =>
      obtain ⟨rfl, rfl⟩ := Prod.ext_iff.mp (Except.ok.inj (found.symm.trans found'))
      rw [ih]
      rfl
    next fault found' =>
      rw [found] at found'
      cases found'

theorem Segment.Spells.last {segment : Segment} {text : List Char}
    (spelled : segment.Spells text) : ∀ c ∈ text.getLast?, isBlank c = false := by
  cases spelled with
  | bracketed =>
    rw [← List.cons_append, List.getLast?_concat]
    rintro c ⟨⟩
    rfl
  | dotted bare =>
    rw [List.getLast?_cons_of_ne_nil bare.filled]
    exact bare.last
  | descendant bare =>
    rw [List.getLast?_cons_cons, List.getLast?_cons_of_ne_nil bare.filled]
    exact bare.last

theorem Path.Spells.last (spelled : path.Spells cs) : ∀ c ∈ cs.getLast?, isBlank c = false := by
  induction spelled with
  | nothing => simp
  | segment first later ih => exact not_blank_last_append first.last ih

theorem not_blank_of_endsKey {c : Char} (ends : endsKey c = true) : isBlank c = false := by
  have either : c = '.' ∨ c = '[' := by simpa [endsKey] using ends
  rcases either with rfl | rfl <;> rfl

theorem isTrimmed_append (rooted : IsRoot root) (first : ∀ c ∈ cs.head?, isBlank c = false)
    (last : ∀ c ∈ cs.getLast?, isBlank c = false) : IsTrimmed (root ++ cs) := by
  have marked {mark : Char} (visible : isBlank mark = false) : IsTrimmed ([mark] ++ cs) := by
    refine ⟨?_, not_blank_last_append ?_ last⟩
    all_goals
      rintro c ⟨⟩
      exact visible
  rcases rooted with rfl | rfl | rfl
  · exact marked rfl
  · exact marked rfl
  · exact ⟨first, last⟩

theorem dropRoot_append (rooted : IsRoot root) (apart : ∀ c ∈ cs.head?, c ≠ '$' ∧ c ≠ '@') :
    dropRoot (root ++ cs) = cs := by
  rcases rooted with rfl | rfl | rfl
  · rfl
  · rfl
  · cases cs with
    | nil => rfl
    | cons c rest =>
      obtain ⟨dollar, sign⟩ := apart c rfl
      rw [List.nil_append, dropRoot]
      · simpa using dollar
      · simpa using sign

/-- What is written for a path is compiled to it. -/
theorem compile_of_writes {text : String} (written : path.Writes text.toList) :
    compile text = .ok path := by
  generalize whole : text.toList = letters at written
  cases written with
  | @segments _ root cs rooted spelled =>
    have first : ∀ c ∈ cs.head?, isBlank c = false :=
      fun c hc => not_blank_of_endsKey (spelled.opens c hc)
    have apart : ∀ c ∈ cs.head?, c ≠ '$' ∧ c ≠ '@' := by
      intro c hc
      have ends := spelled.opens c hc
      constructor <;> rintro rfl <;> contradiction
    rw [compile, whole, (isTrimmed_append rooted first spelled.last).trimChars_eq,
      dropRoot_append rooted apart]
    have read := segmentsOf_of_spells spelled
    cases cs with
    | nil => rwa [segmentsOf] at read
    | cons c rest =>
      have ends : (c = '.' || c = '[') = true := spelled.opens c rfl
      dsimp only
      rw [if_pos ends, read]
  | @bareKey name path root cs rooted bare named first spelled =>
    have last : ∀ c ∈ (name.toList ++ cs).getLast?, isBlank c = false :=
      not_blank_last_append bare.last spelled.last
    obtain ⟨c, key, split⟩ := List.exists_cons_of_ne_nil bare.filled
    obtain ⟨plain, single⟩ := List.forall_mem_cons.mp (split ▸ bare.single)
    obtain ⟨taken, dropped⟩ := span_key single spelled.opens
    have start : ∀ d ∈ (name.toList ++ cs).head?, d ≠ '$' ∧ d ≠ '@' ∧ isBlank d = false := by
      rw [split] at first ⊢
      exact first
    rw [compile, whole,
      (isTrimmed_append rooted (fun d hd => (start d hd).2.2) last).trimChars_eq,
      dropRoot_append rooted fun d hd => ⟨(start d hd).1, (start d hd).2.1⟩]
    rw [split, List.cons_append]
    dsimp only
    rw [if_neg (by simpa [endsKey] using plain), taken, dropped, segmentsOf_of_spells spelled,
      ← split, keySegment_of_named named]
    rfl

/-! ### Written paths -/

theorem Segment.IsWritable.spells {segment : Segment} (writable : segment.IsWritable) :
    segment.Spells segment.written := by
  cases segment with
  | key name =>
    have inside : Encloses (.key name) _ := .key (.inl rfl) writable
    simpa [written] using Spells.bracketed inside isBlanks_nil isBlanks_nil
  | index n =>
    simpa [written] using Spells.bracketed (.index writable) isBlanks_nil isBlanks_nil
  | wildcard => exact .bracketed .wildcard isBlanks_nil isBlanks_nil
  | descendant name => exact .descendant writable

theorem writes_written (writable : ∀ segment ∈ path, segment.IsWritable) :
    path.Writes path.written.toList := by
  have spelled : path.Spells (path.flatMap Segment.written) := by
    induction path with
    | nil => exact .nothing
    | cons segment path ih =>
      obtain ⟨first, later⟩ := List.forall_mem_cons.mp writable
      exact .segment first.spells (ih later)
  rw [Path.written, String.toList_ofList]
  exact .segments (.inl rfl) spelled

end Paths

/-- A path that is written in any of the ways its format leaves open is compiled to its segments,
and each path of segments that can be written is written in one of these ways. -/
theorem compile_undoes_spelling :
    (∀ path : Path, (∀ segment ∈ path, segment.IsWritable) →
      path.Writes path.written.toList ∧ compile path.written = .ok path) ∧
    (∀ (path : Path) (text : String), path.Writes text.toList → compile text = .ok path) :=
  ⟨fun _ writable => ⟨writes_written writable, compile_of_writes (writes_written writable)⟩,
    fun _ _ written => compile_of_writes written⟩

/-- Keys with a quote and with a dot in them, an index from the end, a star and a descendant. -/
def mixedPath : Path :=
  [.key "first", .key "it's", .index (-1), .wildcard, .descendant "name", .key "a.b"]

theorem mixedPath_read_back :
    (∀ segment ∈ mixedPath, segment.IsWritable) ∧
      mixedPath.written = "$['first']['it's'][-1][*]..name['a.b']" ∧
      compile "$['first']['it's'][-1][*]..name['a.b']" = .ok mixedPath ∧
      mixedPath.Writes "first.it's[ -1 ][*]..name[\"a.b\" ]".toList ∧
      compile "first.it's[ -1 ][*]..name[\"a.b\" ]" = .ok mixedPath := by
  have bare {name : String} (filled : name.toList ≠ [])
      (single : (name.toList.all fun c => !endsKey c) = true)
      (last : (name.toList.getLast?.all fun c => !isBlank c) = true) : IsBare name.toList := by
    refine ⟨filled, fun c mem => ?_, fun c mem => ?_⟩
    · simpa using List.all_eq_true.mp single c mem
    · simpa [Option.mem_def.mp mem] using last
  have descendant : IsBare "name".toList := bare (by decide) (by decide) (by decide)
  have writable : ∀ segment ∈ mixedPath, segment.IsWritable := by
    simp only [mixedPath, List.forall_mem_cons, Segment.IsWritable]
    exact ⟨by decide, by decide, by decide, trivial, descendant, by decide, by simp⟩
  have text : "first.it's[ -1 ][*]..name[\"a.b\" ]".toList =
      [] ++ ("first".toList ++ (('.' :: "it's".toList) ++
        (('[' :: ([' '] ++ ((toString (-1 : Int)).toList ++ [' ']) ++ [']'])) ++
        (('[' :: ([] ++ (['*'] ++ []) ++ [']'])) ++ (('.' :: '.' :: "name".toList) ++
        (('[' :: ([] ++ (('"' :: ("a.b".toList ++ ['"'])) ++ [' ']) ++ [']'])) ++ [])))))) := by
    decide +kernel
  have blank : IsBlanks [' '] := by simp [IsBlanks, isBlank]
  have first : ∀ c ∈ "first".toList.head?, c ≠ '$' ∧ c ≠ '@' ∧ isBlank c = false := by
    rintro c ⟨⟩
    decide
  have written : mixedPath.Writes "first.it's[ -1 ][*]..name[\"a.b\" ]".toList := by
    rw [text]
    exact .bareKey (.inr (.inr rfl)) (bare (by decide) (by decide) (by decide)) (by decide) first
      (.segment (.dotted (bare (by decide) (by decide) (by decide)) (by decide))
        (.segment (.bracketed (.index (by decide)) blank blank)
          (.segment (.bracketed .wildcard isBlanks_nil isBlanks_nil)
            (.segment (.descendant descendant)
              (.segment (.bracketed (.key (.inr rfl) (by decide)) isBlanks_nil blank) .nothing)))))
  have plain : mixedPath.written = "$['first']['it's'][-1][*]..name['a.b']" := by decide +kernel
  exact ⟨writable, plain, plain ▸ (compile_undoes_spelling.1 mixedPath writable).2, written,
    compile_undoes_spelling.2 _ _ written⟩

end CatalogGraph.JsonPath
