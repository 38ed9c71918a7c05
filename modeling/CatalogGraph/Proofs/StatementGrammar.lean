import CatalogGraph.Graph.Term
import CatalogGraph.Text.Ranges
import Mathlib.Data.List.Forall2

/-!
The grammar of N-Triples, as a relation between texts and what they state, and that no text states
two things. Escapes, white space between tokens and comments are those of the format, also where no
graph here is written with them.
-/
namespace CatalogGraph.NTriples

/-- The value of a digit of base 16, in upper or in lower case. -/
def hexValue (c : Char) : Option Nat :=
  if '0' ≤ c ∧ c ≤ '9' then some (c.toNat - '0'.toNat)
  else if 'A' ≤ c ∧ c ≤ 'F' then some (c.toNat - 'A'.toNat + 10)
  else if 'a' ≤ c ∧ c ≤ 'f' then some (c.toNat - 'a'.toNat + 10)
  else none

def hexNumber (digits : List Char) : Option Nat :=
  digits.foldlM (fun n digit => (hexValue digit).map (16 * n + ·)) 0

/-- A character by the number it has, in four digits or in eight. -/
inductive NumericEscape : List Char → Char → Prop
  | short {digits : List Char} {c : Char} (four : digits.length = 4)
      (value : hexNumber digits = some c.toNat) : NumericEscape ('\\' :: 'u' :: digits) c
  | long {digits : List Char} {c : Char} (eight : digits.length = 8)
      (value : hexNumber digits = some c.toNat) : NumericEscape ('\\' :: 'U' :: digits) c

/-- A character that may stand between angle brackets as it is. -/
def IsIriChar (c : Char) : Prop :=
  0x20 < c.toNat ∧ c ∉ ['<', '>', '"', '\x7b', '\x7d', '|', '^', '\x60', '\\']

instance (c : Char) : Decidable (IsIriChar c) := inferInstanceAs (Decidable (_ ∧ _))

/-- A character that may stand between quotes as it is. -/
def IsQuotedChar (c : Char) : Prop := c ∉ ['"', '\\', '\n', '\r']

instance (c : Char) : Decidable (IsQuotedChar c) := inferInstanceAs (Decidable (_ ∉ _))

/-- The character that a letter stands for behind a backslash. -/
def escapedChar? : Char → Option Char
  | 't' => some '\t'
  | 'b' => some '\x08'
  | 'n' => some '\n'
  | 'r' => some '\r'
  | 'f' => some '\x0c'
  | '"' => some '"'
  | '\x27' => some '\x27'
  | '\\' => some '\\'
  | _ => none

/-- One character between angle brackets. -/
inductive IriPiece : List Char → Char → Prop
  | plain {c : Char} (allowed : IsIriChar c) : IriPiece [c] c
  | numeric {text : List Char} {c : Char} (escape : NumericEscape text c) : IriPiece text c

/-- One character between quotes. -/
inductive QuotedPiece : List Char → Char → Prop
  | plain {c : Char} (allowed : IsQuotedChar c) : QuotedPiece [c] c
  | named {letter c : Char} (escape : escapedChar? letter = some c) : QuotedPiece ['\\', letter] c
  | numeric {text : List Char} {c : Char} (escape : NumericEscape text c) : QuotedPiece text c

/-- The characters of a text, each written by a piece of its own. -/
inductive Pieces (piece : List Char → Char → Prop) : List Char → List Char → Prop
  | nil : Pieces piece [] []
  | cons {text more : List Char} {c : Char} {others : List Char} (first : piece text c)
      (rest : Pieces piece more others) : Pieces piece (text ++ more) (c :: others)

/-- Pieces between two marks. -/
inductive Enclosed (piece : List Char → Char → Prop) (left right : Char) :
    List Char → String → Prop
  | mk {inner : List Char} {content : String} (pieces : Pieces piece inner content.toList) :
      Enclosed piece left right (left :: (inner ++ [right])) content

/-- A name between angle brackets. -/
abbrev IriRef : List Char → String → Prop := Enclosed IriPiece '<' '>'

/-- A text between quotes. -/
abbrev Quoted : List Char → String → Prop := Enclosed QuotedPiece '"' '"'

/-- The characters that a label may begin with. -/
def isLabelStart (c : Char) : Bool :=
  Text.inRanges [(0x30, 0x3a), (0x41, 0x5a), (0x5f, 0x5f), (0x61, 0x7a), (0xc0, 0xd6), (0xd8, 0xf6),
    (0xf8, 0x2ff), (0x370, 0x37d), (0x37f, 0x1fff), (0x200c, 0x200d), (0x2070, 0x218f),
    (0x2c00, 0x2fef), (0x3001, 0xd7ff), (0xf900, 0xfdcf), (0xfdf0, 0xfffd), (0x10000, 0xeffff)] c

def isLabelPart (c : Char) : Bool :=
  isLabelStart c ||
    Text.inRanges [(0x2d, 0x2e), (0xb7, 0xb7), (0x300, 0x36f), (0x203f, 0x2040)] c

/-- The label of a blank node, in which a full stop stands neither first nor last. -/
structure IsLabel (label : List Char) : Prop where
  starts : label.head?.any isLabelStart = true
  parts : ∀ c ∈ label, isLabelPart c = true
  ends : label.getLast? ≠ some '.'

def isTagPart (c : Char) : Bool := c.isAlphanum || c == '-'

/-- The tag of a language: letters, and behind them any number of parts set off by hyphens. -/
def IsLanguageTag (tag : List Char) : Prop :=
  ∃ (primary : List Char) (parts : List (List Char)),
    tag = primary ++ parts.flatMap ('-' :: ·) ∧ primary ≠ [] ∧ (∀ c ∈ primary, c.isAlpha) ∧
      ∀ part ∈ parts, part ≠ [] ∧ ∀ c ∈ part, c.isAlphanum

def isGapChar (c : Char) : Bool := c == ' ' || c == '\t'

/-- White space between tokens. -/
def IsGap (text : List Char) : Prop := ∀ c ∈ text, isGapChar c = true

def isLineEnd (c : Char) : Bool := c == '\n' || c == '\r'

/-- White space with or without a comment behind it. -/
def IsRemark (text : List Char) : Prop :=
  ∃ gap comment, text = gap ++ comment ∧ IsGap gap ∧
    (comment = [] ∨ ∃ rest, comment = '#' :: rest ∧ ∀ c ∈ rest, isLineEnd c = false)

theorem isGap_nil : IsGap [] := by simp [IsGap]

theorem isRemark_nil : IsRemark [] := ⟨[], [], rfl, isGap_nil, .inl rfl⟩

/-- What stands behind the quotes of a literal, with the datatype and the language that it gives. -/
inductive Mark : List Char → String → Option String → Prop
  | absent : Mark [] Vocabulary.xsdString none
  | datatype {before between text : List Char} {name : String} (gap : IsGap before)
      (gap' : IsGap between) (ref : IriRef text name) :
      Mark (before ++ '^' :: '^' :: (between ++ text)) name none
  | language {before : List Char} {tag : String} (gap : IsGap before)
      (valid : IsLanguageTag tag.toList) :
      Mark (before ++ '@' :: tag.toList) Vocabulary.rdfLangString (some tag)

/-- The texts that stand for a term. -/
inductive Stands : List Char → Term → Prop
  | iri {text : List Char} {name : String} (ref : IriRef text name) : Stands text (.iri name)
  | blank {label : String} (valid : IsLabel label.toList) :
      Stands ('_' :: ':' :: label.toList) (.blank label)
  | literal {text mark : List Char} {value datatype : String} {language : Option String}
      (quoted : Quoted text value) (marked : Mark mark datatype language) :
      Stands (text ++ mark) (.literal ⟨value, datatype, language⟩)

/-- The texts that make a statement: three terms and a full stop. -/
inductive States : List Char → Triple → Prop
  | mk {lead s between p behind o last remark : List Char} {subject : Term} {predicate : String}
      {object : Term} (leads : IsGap lead) (subjectText : Stands s subject)
      (node : subject.isLiteral = false) (gap : IsGap between) (predicateText : IriRef p predicate)
      (gap' : IsGap behind) (objectText : Stands o object) (lasts : IsGap last)
      (remarks : IsRemark remark) :
      States (lead ++ (s ++ (between ++ (p ++ (behind ++ (o ++ (last ++ '.' :: remark)))))))
        ⟨subject, .iri predicate, object⟩

/-- A line holds one statement or none. -/
inductive Line : List Char → List Triple → Prop
  | remark {line : List Char} (remarks : IsRemark line) : Line line []
  | statement {line : List Char} {t : Triple} (states : States line t) : Line line [t]

/-- A text states what its lines state, one after the other. -/
def Document (text : List Char) (triples : List Triple) : Prop :=
  ∃ parts, List.Forall₂ Line (text.splitOnP isLineEnd) parts ∧ parts.flatten = triples

/-- Of two tokens in front of allowed texts that make the same text, both have the same meaning and
leave the same text. -/
def ReadsOnce {α : Type} (token : List Char → α → Prop) (behind : List Char → Prop) : Prop :=
  ∀ {a b : List Char} {x y : α} {r s : List Char}, token a x → token b y → a ++ r = b ++ s →
    behind r → behind s → x = y ∧ r = s

section Pieces

theorem readsOnce_numeric : ReadsOnce NumericEscape fun _ => True := by
  intro a b x y r s first second same _ _
  cases first with
  | short four value =>
    cases second with
    | short four' value' =>
      simp only [List.cons_append, List.cons.injEq, true_and] at same
      obtain ⟨rfl, rfl⟩ := List.append_inj same (four.trans four'.symm)
      have number := Option.some.inj (value.symm.trans value')
      exact ⟨Char.toNat_inj.mp number, rfl⟩
    | long => simp at same
  | long eight value =>
    cases second with
    | short => simp at same
    | long eight' value' =>
      simp only [List.cons_append, List.cons.injEq, true_and] at same
      obtain ⟨rfl, rfl⟩ := List.append_inj same (eight.trans eight'.symm)
      have number := Option.some.inj (value.symm.trans value')
      exact ⟨Char.toNat_inj.mp number, rfl⟩

theorem NumericEscape.begins {text : List Char} {c : Char} (escape : NumericEscape text c) :
    ∃ letter rest, text = '\\' :: letter :: rest ∧ escapedChar? letter = none := by
  cases escape with
  | short => exact ⟨_, _, rfl, rfl⟩
  | long => exact ⟨_, _, rfl, rfl⟩

theorem readsOnce_iriPiece : ReadsOnce IriPiece fun _ => True := by
  intro a b x y r s first second same _ _
  cases first with
  | plain allowed =>
    cases second with
    | plain => simpa using same
    | numeric escape =>
      obtain ⟨letter, rest, rfl, -⟩ := escape.begins
      obtain rfl : x = '\\' := (List.cons.inj same).1
      exact absurd allowed (by decide)
  | numeric escape =>
    cases second with
    | plain allowed =>
      obtain ⟨letter, rest, rfl, -⟩ := escape.begins
      obtain rfl : y = '\\' := (List.cons.inj same).1.symm
      exact absurd allowed (by decide)
    | numeric escape' => exact readsOnce_numeric escape escape' same trivial trivial

theorem readsOnce_quotedPiece : ReadsOnce QuotedPiece fun _ => True := by
  intro a b x y r s first second same _ _
  cases first with
  | plain allowed =>
    cases second with
    | plain => simpa using same
    | named =>
      obtain rfl : x = '\\' := (List.cons.inj same).1
      exact absurd allowed (by decide)
    | numeric escape =>
      obtain ⟨letter, rest, rfl, -⟩ := escape.begins
      obtain rfl : x = '\\' := (List.cons.inj same).1
      exact absurd allowed (by decide)
  | named escape =>
    cases second with
    | plain allowed =>
      obtain rfl : y = '\\' := (List.cons.inj same).1.symm
      exact absurd allowed (by decide)
    | named escape' =>
      simp only [List.cons_append, List.nil_append, List.cons.injEq, true_and] at same
      obtain ⟨rfl, rfl⟩ := same
      exact ⟨Option.some.inj (escape.symm.trans escape'), rfl⟩
    | numeric escape' =>
      obtain ⟨letter, rest, rfl, unnamed⟩ := escape'.begins
      simp only [List.cons_append, List.nil_append, List.cons.injEq, true_and] at same
      rw [same.1, unnamed] at escape
      cases escape
  | numeric escape =>
    obtain ⟨letter, rest, rfl, unnamed⟩ := escape.begins
    cases second with
    | plain allowed =>
      obtain rfl : y = '\\' := (List.cons.inj same).1.symm
      exact absurd allowed (by decide)
    | named escape' =>
      simp only [List.cons_append, List.nil_append, List.cons.injEq, true_and] at same
      rw [← same.1, unnamed] at escape'
      cases escape'
    | numeric escape' => exact readsOnce_numeric escape escape' same trivial trivial

/-- Pieces are read up to a character that none of them begins with. -/
theorem readsOnce_pieces {piece : List Char → Char → Prop} {stop : Char}
    (once : ReadsOnce piece fun _ => True)
    (begins : ∀ {text c}, piece text c → ∃ d rest, text = d :: rest ∧ d ≠ stop) :
    ReadsOnce (Pieces piece) fun rest => rest.head? = some stop := by
  intro a b x y r s first second same stops stops'
  induction first generalizing b y with
  | nil =>
    cases second with
    | nil => exact ⟨rfl, same⟩
    | cons next =>
      obtain ⟨d, rest, rfl, other⟩ := begins next
      rw [List.nil_append] at same
      rw [same] at stops
      exact absurd (Option.some.inj stops) other
  | @cons text more c others next _ ih =>
    cases second with
    | nil =>
      obtain ⟨d, rest, rfl, other⟩ := begins next
      rw [List.nil_append] at same
      rw [← same] at stops'
      exact absurd (Option.some.inj stops') other
    | cons next' onward =>
      rw [List.append_assoc, List.append_assoc] at same
      obtain ⟨rfl, same⟩ := once next next' same trivial trivial
      obtain ⟨rfl, rfl⟩ := ih onward same
      exact ⟨rfl, rfl⟩

theorem IriPiece.begins {text : List Char} {c : Char} (piece : IriPiece text c) :
    ∃ d rest, text = d :: rest ∧ d ≠ '>' := by
  cases piece with
  | plain allowed => exact ⟨c, [], rfl, by rintro rfl; exact absurd allowed (by decide)⟩
  | numeric escape =>
    obtain ⟨letter, rest, rfl, -⟩ := escape.begins
    exact ⟨_, _, rfl, by decide⟩

theorem QuotedPiece.begins {text : List Char} {c : Char} (piece : QuotedPiece text c) :
    ∃ d rest, text = d :: rest ∧ d ≠ '"' := by
  cases piece with
  | plain allowed => exact ⟨c, [], rfl, by rintro rfl; exact absurd allowed (by decide)⟩
  | named => exact ⟨_, _, rfl, by decide⟩
  | numeric escape =>
    obtain ⟨letter, rest, rfl, -⟩ := escape.begins
    exact ⟨_, _, rfl, by decide⟩

theorem Enclosed.begins {piece : List Char → Char → Prop} {left right : Char} {text : List Char}
    {content : String} (enclosed : Enclosed piece left right text content) :
    ∃ rest, text = left :: rest := by
  cases enclosed with
  | mk => exact ⟨_, rfl⟩

theorem readsOnce_enclosed {piece : List Char → Char → Prop} {left right : Char}
    (once : ReadsOnce piece fun _ => True)
    (begins : ∀ {text c}, piece text c → ∃ d rest, text = d :: rest ∧ d ≠ right) :
    ReadsOnce (Enclosed piece left right) fun _ => True := by
  intro a b x y r s first second same _ _
  cases first with
  | mk pieces =>
    cases second with
    | mk pieces' =>
      simp only [List.cons_append, List.cons.injEq, true_and, List.append_assoc] at same
      obtain ⟨chars, rest⟩ := readsOnce_pieces once begins pieces pieces' same rfl rfl
      exact ⟨String.toList_inj.mp chars, by simpa using rest⟩

theorem readsOnce_iriRef : ReadsOnce IriRef fun _ => True :=
  readsOnce_enclosed readsOnce_iriPiece IriPiece.begins

theorem readsOnce_quoted : ReadsOnce Quoted fun _ => True :=
  readsOnce_enclosed readsOnce_quotedPiece QuotedPiece.begins

end Pieces

section Tokens

/-- A text that does not begin with white space and is not empty. -/
def Begins (text : List Char) : Prop := ∃ c rest, text = c :: rest ∧ isGapChar c = false

/-- What may stand behind a subject or an object. -/
def Behind (text : List Char) : Prop :=
  ∃ gap c rest, text = gap ++ c :: rest ∧ IsGap gap ∧ (c = '<' ∨ c = '.' ∧ IsRemark rest)

theorem begins_cons {c : Char} (rest : List Char) (filled : isGapChar c = false) :
    Begins (c :: rest) :=
  ⟨c, rest, rfl, filled⟩

theorem dropWhile_gap {gap text : List Char} (blank : IsGap gap) (begins : Begins text) :
    (gap ++ text).dropWhile isGapChar = text := by
  obtain ⟨c, rest, rfl, filled⟩ := begins
  rw [List.dropWhile_append_of_pos blank, List.dropWhile_cons_of_neg (by simp [filled])]

theorem skip_gap {a b r s : List Char} (gap : IsGap a) (gap' : IsGap b) (begins : Begins r)
    (begins' : Begins s) (same : a ++ r = b ++ s) : r = s := by
  rw [← dropWhile_gap gap begins, ← dropWhile_gap gap' begins', same]

theorem Behind.begins_apart {text gap rest : List Char} {c : Char} (behind : Behind text)
    (blank : IsGap gap) (filled : isGapChar c = false) (same : text = gap ++ c :: rest) :
    c = '<' ∨ c = '.' := by
  obtain ⟨gap', d, rest', rfl, blank', stop⟩ := behind
  have stops : isGapChar d = false := by rcases stop with rfl | ⟨rfl, -⟩ <;> rfl
  have both := skip_gap blank' blank ⟨d, rest', rfl, stops⟩ ⟨c, rest, rfl, filled⟩ same
  obtain rfl := (List.cons.inj both).1
  exact stop.imp_right And.left

theorem IsRemark.head {text rest : List Char} {c : Char} (remark : IsRemark text)
    (same : text = c :: rest) : isGapChar c = true ∨ c = '#' := by
  obtain ⟨gap, comment, rfl, blank, comments⟩ := remark
  cases gap with
  | nil =>
    rcases comments with rfl | ⟨rest', rfl, -⟩
    · cases same
    · exact .inr (List.cons.inj same).1.symm
  | cons d gap => exact .inl ((List.cons.inj same).1 ▸ blank d (by simp))

theorem not_isLabelPart {c : Char} (other : isGapChar c = true ∨ c = '#' ∨ c = '<') :
    isLabelPart c = false := by
  rcases other with blank | rfl | rfl
  · have blank : c = ' ' ∨ c = '\t' := by simpa [isGapChar] using blank
    rcases blank with rfl | rfl <;> decide
  · decide
  · decide

/-- What stands behind a label cannot make it longer. -/
theorem Behind.last_of_label {text run rest : List Char} (behind : Behind text)
    (same : text = run ++ rest) (parts : ∀ c ∈ run, isLabelPart c = true) (longer : run ≠ []) :
    run.getLast? = some '.' := by
  obtain ⟨first, run, rfl⟩ := List.exists_cons_of_ne_nil longer
  have part := parts first (by simp)
  obtain ⟨gap, c, tail, rfl, blank, stop⟩ := behind
  cases gap with
  | cons d gap =>
    obtain rfl := (List.cons.inj same).1
    rw [not_isLabelPart (.inl (blank d (by simp)))] at part
    cases part
  | nil =>
    obtain ⟨rfl, onward⟩ := List.cons.inj same
    rcases stop with rfl | ⟨rfl, remark⟩
    · cases part
    · cases run with
      | nil => rfl
      | cons e run =>
        have part := parts e (by simp)
        rw [not_isLabelPart ((remark.head onward).imp_right .inl)] at part
        cases part

/-- A token that is written as it is reads once if what stands behind it cannot belong to it. -/
theorem readsOnce_text {valid behind : List Char → Prop}
    (whole : ∀ {token run rest}, valid (token ++ run) → behind (run ++ rest) → run = []) :
    ReadsOnce (fun text (content : String) => valid content.toList ∧ text = content.toList)
      behind := by
  rintro a b x y r s ⟨holds, rfl⟩ ⟨holds', rfl⟩ same stops stops'
  rcases List.append_eq_append_iff.mp same with ⟨run, longer, rest⟩ | ⟨run, longer, rest⟩
  · obtain rfl := whole (longer ▸ holds') (rest ▸ stops)
    exact ⟨String.toList_inj.mp (by simpa using longer.symm), by simpa using rest⟩
  · obtain rfl := whole (longer ▸ holds) (rest ▸ stops')
    exact ⟨String.toList_inj.mp (by simpa using longer), by simpa using rest.symm⟩

theorem readsOnce_label :
    ReadsOnce (fun text (label : String) => IsLabel label.toList ∧ text = label.toList) Behind := by
  refine readsOnce_text fun {token run rest} valid behind => ?_
  by_contra longer
  have last := behind.last_of_label rfl (fun c mem => valid.parts c (by simp [mem])) longer
  refine valid.ends ?_
  rw [List.getLast?_append, last, Option.some_or]

theorem IsLanguageTag.parts {tag : List Char} (valid : IsLanguageTag tag) :
    ∀ c ∈ tag, isTagPart c = true := by
  obtain ⟨primary, parts, rfl, -, letters, others⟩ := valid
  intro c mem
  rcases List.mem_append.mp mem with mem | mem
  · simp [isTagPart, Char.isAlphanum, letters c mem]
  · obtain ⟨part, within, mem⟩ := List.mem_flatMap.mp mem
    rcases List.mem_cons.mp mem with rfl | mem
    · rfl
    · simp [isTagPart, (others part within).2 c mem]

theorem Behind.not_isTagPart {text rest : List Char} {c : Char} (behind : Behind text)
    (same : text = c :: rest) : isTagPart c = false := by
  obtain ⟨gap, d, tail, rfl, blank, stop⟩ := behind
  cases gap with
  | nil =>
    obtain rfl := (List.cons.inj same).1
    rcases stop with rfl | ⟨rfl, -⟩ <;> rfl
  | cons e gap =>
    obtain rfl := (List.cons.inj same).1
    have blank : e = ' ' ∨ e = '\t' := by simpa [isGapChar] using blank e
    rcases blank with rfl | rfl <;> rfl

theorem readsOnce_tag :
    ReadsOnce (fun text (tag : String) => IsLanguageTag tag.toList ∧ text = tag.toList) Behind := by
  refine readsOnce_text fun {token run rest} valid behind => ?_
  cases run with
  | nil => rfl
  | cons c run =>
    have part := valid.parts c (by simp)
    rw [behind.not_isTagPart rfl] at part
    cases part

theorem IriRef.begins_append {text : List Char} {name : String} (ref : IriRef text name)
    (rest : List Char) : Begins (text ++ rest) := by
  obtain ⟨inner, rfl⟩ := ref.begins
  exact begins_cons _ rfl

theorem readsOnce_mark :
    ReadsOnce (fun mark (content : String × Option String) => Mark mark content.1 content.2)
      Behind := by
  rintro a b ⟨datatype, language⟩ ⟨datatype', language'⟩ r s first second same behind behind'
  simp only at first second
  cases first with
  | absent =>
    cases second with
    | absent => exact ⟨rfl, same⟩
    | datatype gap =>
      rw [List.nil_append, List.append_assoc] at same
      rcases behind.begins_apart gap rfl same with stop | stop <;> cases stop
    | language gap =>
      rw [List.nil_append, List.append_assoc] at same
      rcases behind.begins_apart gap rfl same with stop | stop <;> cases stop
  | datatype gap between ref =>
    simp only [List.append_assoc, List.cons_append] at same
    cases second with
    | absent => rcases behind'.begins_apart gap rfl same.symm with stop | stop <;> cases stop
    | datatype gap' between' ref' =>
      simp only [List.append_assoc, List.cons_append] at same
      have marked := skip_gap gap gap' (begins_cons _ rfl) (begins_cons _ rfl) same
      obtain ⟨-, marked⟩ := List.cons.inj marked
      obtain ⟨-, marked⟩ := List.cons.inj marked
      have refs := skip_gap between between' (ref.begins_append r) (ref'.begins_append s) marked
      obtain ⟨rfl, rfl⟩ := readsOnce_iriRef ref ref' refs trivial trivial
      exact ⟨rfl, rfl⟩
    | language gap' =>
      simp only [List.append_assoc, List.cons_append] at same
      have marked := skip_gap gap gap' (begins_cons _ rfl) (begins_cons _ rfl) same
      cases (List.cons.inj marked).1
  | language gap valid =>
    simp only [List.append_assoc, List.cons_append] at same
    cases second with
    | absent => rcases behind'.begins_apart gap rfl same.symm with stop | stop <;> cases stop
    | datatype gap' =>
      simp only [List.append_assoc, List.cons_append] at same
      have marked := skip_gap gap gap' (begins_cons _ rfl) (begins_cons _ rfl) same
      cases (List.cons.inj marked).1
    | language gap' valid' =>
      simp only [List.append_assoc, List.cons_append] at same
      have marked := skip_gap gap gap' (begins_cons _ rfl) (begins_cons _ rfl) same
      obtain ⟨-, tags⟩ := List.cons.inj marked
      obtain ⟨rfl, rfl⟩ := readsOnce_tag ⟨valid, rfl⟩ ⟨valid', rfl⟩ tags behind behind'
      exact ⟨rfl, rfl⟩

/-- The first character of a term tells its kind. -/
theorem Stands.begins {text : List Char} {term : Term} (stands : Stands text term) :
    ∃ c rest, text = c :: rest ∧
      (c = '<' ∧ term.isIri ∨ c = '_' ∧ term.isBlank ∨ c = '"' ∧ term.isLiteral) := by
  cases stands with
  | iri ref =>
    obtain ⟨rest, rfl⟩ := ref.begins
    exact ⟨_, _, rfl, .inl ⟨rfl, rfl⟩⟩
  | blank => exact ⟨_, _, rfl, .inr (.inl ⟨rfl, rfl⟩)⟩
  | literal quoted =>
    obtain ⟨rest, rfl⟩ := quoted.begins
    exact ⟨_, _, rfl, .inr (.inr ⟨rfl, rfl⟩)⟩

theorem Stands.begins_append {text : List Char} {term : Term} (stands : Stands text term)
    (rest : List Char) : Begins (text ++ rest) := by
  obtain ⟨c, inner, rfl, kinds⟩ := stands.begins
  rcases kinds with ⟨rfl, -⟩ | ⟨rfl, -⟩ | ⟨rfl, -⟩ <;> exact begins_cons _ rfl

theorem readsOnce_stands : ReadsOnce Stands Behind := by
  intro a b x y r s first second same behind behind'
  cases first with
  | iri ref =>
    obtain ⟨inner, rfl⟩ := ref.begins
    cases second with
    | iri ref' =>
      obtain ⟨rfl, rfl⟩ := readsOnce_iriRef ref ref' same trivial trivial
      exact ⟨rfl, rfl⟩
    | blank => cases (List.cons.inj same).1
    | literal quoted =>
      obtain ⟨inner', rfl⟩ := quoted.begins
      cases (List.cons.inj same).1
  | blank valid =>
    cases second with
    | iri ref =>
      obtain ⟨inner, rfl⟩ := ref.begins
      cases (List.cons.inj same).1
    | blank valid' =>
      simp only [List.cons_append, List.cons.injEq, true_and] at same
      obtain ⟨rfl, rfl⟩ := readsOnce_label ⟨valid, rfl⟩ ⟨valid', rfl⟩ same behind behind'
      exact ⟨rfl, rfl⟩
    | literal quoted =>
      obtain ⟨inner, rfl⟩ := quoted.begins
      cases (List.cons.inj same).1
  | literal quoted marked =>
    cases second with
    | iri ref =>
      obtain ⟨inner, rfl⟩ := ref.begins
      obtain ⟨inner', rfl⟩ := quoted.begins
      cases (List.cons.inj same).1
    | blank =>
      obtain ⟨inner, rfl⟩ := quoted.begins
      cases (List.cons.inj same).1
    | literal quoted' marked' =>
      rw [List.append_assoc, List.append_assoc] at same
      obtain ⟨rfl, marks⟩ := readsOnce_quoted quoted quoted' same trivial trivial
      obtain ⟨contents, rfl⟩ :=
        readsOnce_mark (x := (_, _)) (y := (_, _)) marked marked' marks behind behind'
      obtain ⟨rfl, rfl⟩ := Prod.mk.inj contents
      exact ⟨rfl, rfl⟩

end Tokens

section Lines

theorem IriRef.behind {text gap : List Char} {name : String} (ref : IriRef text name)
    (blank : IsGap gap) (rest : List Char) : Behind (gap ++ (text ++ rest)) := by
  obtain ⟨inner, rfl⟩ := ref.begins
  exact ⟨gap, '<', inner ++ rest, rfl, blank, .inl rfl⟩

theorem IsRemark.behind {gap remark : List Char} (remarks : IsRemark remark) (blank : IsGap gap) :
    Behind (gap ++ '.' :: remark) :=
  ⟨gap, '.', remark, rfl, blank, .inr ⟨rfl, remarks⟩⟩

/-- A text makes one statement at most. -/
theorem States.unique {line line' : List Char} {t t' : Triple} (states : States line t)
    (states' : States line' t') (same : line = line') : t = t' := by
  cases states with
  | mk leads subjectText _ between predicateText behind objectText lasts remarks =>
  cases states' with
  | mk leads' subjectText' _ between' predicateText' behind' objectText' lasts' remarks' =>
    have subjects := skip_gap leads leads' (subjectText.begins_append _)
      (subjectText'.begins_append _) same
    obtain ⟨rfl, rest⟩ := readsOnce_stands subjectText subjectText' subjects
      (predicateText.behind between _) (predicateText'.behind between' _)
    have predicates := skip_gap between between' (predicateText.begins_append _)
      (predicateText'.begins_append _) rest
    obtain ⟨rfl, rest⟩ := readsOnce_iriRef predicateText predicateText' predicates trivial trivial
    have objects := skip_gap behind behind' (objectText.begins_append _)
      (objectText'.begins_append _) rest
    obtain ⟨rfl, -⟩ := readsOnce_stands objectText objectText' objects (remarks.behind lasts)
      (remarks'.behind lasts')
    rfl

theorem States.not_isRemark {line : List Char} {t : Triple} (states : States line t) :
    ¬ IsRemark line := by
  rintro ⟨gap, comment, same, blank, comments⟩
  cases states with
  | mk leads subjectText _ _ _ _ _ _ _ =>
    obtain ⟨c, rest, rfl, kinds⟩ := subjectText.begins
    have filled : isGapChar c = false := by
      rcases kinds with ⟨rfl, -⟩ | ⟨rfl, -⟩ | ⟨rfl, -⟩ <;> rfl
    rcases comments with rfl | ⟨rest', rfl, -⟩
    · have mem : c ∈ gap ++ [] := by rw [← same]; simp
      rw [List.append_nil] at mem
      rw [blank c mem] at filled
      cases filled
    · have both := skip_gap leads blank (begins_cons _ filled) (begins_cons _ rfl) same
      obtain rfl := (List.cons.inj both).1
      rcases kinds with ⟨sign, -⟩ | ⟨sign, -⟩ | ⟨sign, -⟩ <;> cases sign

theorem Line.unique {line : List Char} {triples triples' : List Triple} (holds : Line line triples)
    (holds' : Line line triples') : triples = triples' := by
  cases holds with
  | remark remarks =>
    cases holds' with
    | remark => rfl
    | statement states => exact absurd remarks states.not_isRemark
  | statement states =>
    cases holds' with
    | remark remarks => exact absurd remarks states.not_isRemark
    | statement states' => rw [states.unique states' rfl]

theorem lines_unique {lines : List (List Char)} {parts parts' : List (List Triple)}
    (hold : List.Forall₂ Line lines parts) (hold' : List.Forall₂ Line lines parts') :
    parts = parts' := by
  induction hold generalizing parts' with
  | nil => cases hold'; rfl
  | cons first _ ih =>
    cases hold' with
    | cons first' others => rw [first.unique first', ih others]

/-- A text is read in one way at most. -/
theorem Document.unique {text : List Char} {triples triples' : List Triple}
    (document : Document text triples) (document' : Document text triples') :
    triples = triples' := by
  obtain ⟨parts, hold, rfl⟩ := document
  obtain ⟨parts', hold', rfl⟩ := document'
  rw [lines_unique hold hold']

end Lines

section LineEnds

/-- A text on one line. -/
def Unbroken (text : List Char) : Prop := ∀ c ∈ text, isLineEnd c = false

@[simp] theorem unbroken_nil : Unbroken [] := by simp [Unbroken]

@[simp] theorem unbroken_cons {c : Char} {text : List Char} :
    Unbroken (c :: text) ↔ isLineEnd c = false ∧ Unbroken text := by simp [Unbroken]

@[simp] theorem unbroken_append {text more : List Char} :
    Unbroken (text ++ more) ↔ Unbroken text ∧ Unbroken more := by
  simp [Unbroken, or_imp, forall_and]

theorem isLineEnd_iff {c : Char} : isLineEnd c = true ↔ c = '\n' ∨ c = '\r' := by
  simp [isLineEnd]

/-- Characters of a kind to which no line end belongs are on one line. -/
theorem unbroken_of_kind {kind : Char → Bool} {text : List Char} (feed : kind '\n' = false)
    (carriage : kind '\r' = false) (all : ∀ c ∈ text, kind c = true) : Unbroken text := by
  refine fun c mem => eq_false_of_ne_true fun ends => ?_
  have member := all c mem
  rcases isLineEnd_iff.mp ends with rfl | rfl
  · rw [feed] at member; cases member
  · rw [carriage] at member; cases member

theorem isSome_of_foldlM {digits : List Char} {n m : Nat}
    (value : digits.foldlM (fun n digit => (hexValue digit).map (16 * n + ·)) n = some m) :
    ∀ digit ∈ digits, (hexValue digit).isSome = true := by
  induction digits generalizing n with
  | nil => simp
  | cons first rest ih =>
    rw [List.foldlM_cons] at value
    obtain ⟨k, step, onward⟩ := Option.bind_eq_some_iff.mp value
    obtain ⟨digit, known, -⟩ := Option.map_eq_some_iff.mp step
    intro c mem
    rcases List.mem_cons.mp mem with rfl | mem
    · rw [known]; rfl
    · exact ih onward c mem

theorem NumericEscape.unbroken {text : List Char} {c : Char} (escape : NumericEscape text c) :
    Unbroken text := by
  cases escape with
  | short _ value => simpa using ⟨rfl, rfl, unbroken_of_kind rfl rfl (isSome_of_foldlM value)⟩
  | long _ value => simpa using ⟨rfl, rfl, unbroken_of_kind rfl rfl (isSome_of_foldlM value)⟩

theorem IriPiece.unbroken {text : List Char} {c : Char} (piece : IriPiece text c) :
    Unbroken text := by
  cases piece with
  | plain allowed =>
    refine @unbroken_of_kind (decide <| IsIriChar ·) _ (by decide) (by decide) ?_
    simpa using allowed
  | numeric escape => exact escape.unbroken

theorem QuotedPiece.unbroken {text : List Char} {c : Char} (piece : QuotedPiece text c) :
    Unbroken text := by
  cases piece with
  | plain allowed =>
    refine @unbroken_of_kind (decide <| IsQuotedChar ·) _ (by decide) (by decide) ?_
    simpa using allowed
  | named escape =>
    refine @unbroken_of_kind (fun c => c == '\\' || (escapedChar? c).isSome) _ rfl rfl ?_
    simp [escape]
  | numeric escape => exact escape.unbroken

theorem Pieces.unbroken {piece : List Char → Char → Prop} {text chars : List Char}
    (each : ∀ {text c}, piece text c → Unbroken text) (pieces : Pieces piece text chars) :
    Unbroken text := by
  induction pieces with
  | nil => simp
  | cons first _ ih => exact unbroken_append.mpr ⟨each first, ih⟩

theorem Enclosed.unbroken {piece : List Char → Char → Prop} {left right : Char} {text : List Char}
    {content : String} (each : ∀ {text c}, piece text c → Unbroken text)
    (enclosed : Enclosed piece left right text content) (marks : Unbroken [left, right]) :
    Unbroken text := by
  cases enclosed with
  | mk pieces =>
    simp only [unbroken_cons, unbroken_append] at marks ⊢
    exact ⟨marks.1, pieces.unbroken each, marks.2⟩

theorem IriRef.unbroken {text : List Char} {name : String} (ref : IriRef text name) :
    Unbroken text :=
  Enclosed.unbroken IriPiece.unbroken ref (by simp [isLineEnd])

theorem Quoted.unbroken {text : List Char} {value : String} (quoted : Quoted text value) :
    Unbroken text :=
  Enclosed.unbroken QuotedPiece.unbroken quoted (by simp [isLineEnd])

theorem IsGap.unbroken {text : List Char} (gap : IsGap text) : Unbroken text :=
  unbroken_of_kind rfl rfl gap

theorem Mark.unbroken {text : List Char} {datatype : String} {language : Option String}
    (mark : Mark text datatype language) : Unbroken text := by
  cases mark with
  | absent => simp
  | datatype gap gap' ref =>
    simp only [unbroken_append, unbroken_cons]
    exact ⟨gap.unbroken, rfl, rfl, gap'.unbroken, ref.unbroken⟩
  | language gap valid =>
    simp only [unbroken_append, unbroken_cons]
    exact ⟨gap.unbroken, rfl, unbroken_of_kind rfl rfl valid.parts⟩

theorem Stands.unbroken {text : List Char} {term : Term} (stands : Stands text term) :
    Unbroken text := by
  cases stands with
  | iri ref => exact ref.unbroken
  | blank valid => simpa using ⟨rfl, rfl, unbroken_of_kind (by decide) (by decide) valid.parts⟩
  | literal quoted marked => exact unbroken_append.mpr ⟨quoted.unbroken, marked.unbroken⟩

theorem IsRemark.unbroken {text : List Char} (remark : IsRemark text) : Unbroken text := by
  obtain ⟨gap, comment, rfl, blank, comments⟩ := remark
  rcases comments with rfl | ⟨rest, rfl, single⟩
  · simpa using blank.unbroken
  · simpa using ⟨blank.unbroken, rfl, single⟩

theorem States.unbroken {line : List Char} {t : Triple} (states : States line t) :
    Unbroken line := by
  cases states with
  | mk leads subjectText _ between predicateText behind objectText lasts remarks =>
    simpa using ⟨leads.unbroken, subjectText.unbroken, between.unbroken, predicateText.unbroken,
      behind.unbroken, objectText.unbroken, lasts.unbroken, rfl, remarks.unbroken⟩

/-- Lines with a line end behind each are found again, and so is what stands behind them. -/
theorem splitOnP_unlines_append {lines : List (List Char)} {last : List Char}
    (unbroken : ∀ line ∈ lines, Unbroken line) (whole : Unbroken last) :
    (lines.flatMap (· ++ ['\n']) ++ last).splitOnP isLineEnd = lines ++ [last] := by
  induction lines with
  | nil => exact List.splitOnP_eq_singleton whole
  | cons line lines ih =>
    rw [List.flatMap_cons, List.append_assoc, List.append_assoc, List.singleton_append,
      List.splitOnP_append_cons_of_forall_mem (unbroken line (by simp)) _ rfl,
      ih fun other mem => unbroken other (by simp [mem]), List.cons_append]

theorem splitOnP_unlines {lines : List (List Char)} (unbroken : ∀ line ∈ lines, Unbroken line) :
    (lines.flatMap (· ++ ['\n'])).splitOnP isLineEnd = lines ++ [[]] := by
  simpa using splitOnP_unlines_append unbroken unbroken_nil

theorem unbroken_of_states {lines : List (List Char)} {triples : List Triple}
    (states : List.Forall₂ States lines triples) : ∀ line ∈ lines, Unbroken line := by
  induction states with
  | nil => simp
  | cons first _ ih =>
    intro line mem
    rcases List.mem_cons.mp mem with rfl | mem
    · exact first.unbroken
    · exact ih line mem

theorem document_of_states {lines : List (List Char)} {triples : List Triple}
    (states : List.Forall₂ States lines triples) :
    Document (lines.flatMap (· ++ ['\n'])) triples := by
  refine ⟨triples.map ([·]) ++ [[]], ?_, by simp [← List.flatMap_def]⟩
  rw [splitOnP_unlines (unbroken_of_states states)]
  refine List.rel_append ?_ (.cons (.remark isRemark_nil) .nil)
  exact List.forall₂_map_right_iff.mpr (states.imp fun _ _ => .statement)

end LineEnds

end CatalogGraph.NTriples
