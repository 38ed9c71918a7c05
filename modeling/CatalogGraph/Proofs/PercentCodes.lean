import CatalogGraph.Json.Written
import CatalogGraph.Proofs.SplicedValues

/-!
Percent codes: an escaped text is a segment of a path, from which the text is read back. So texts
that differ are escaped differently, and a slash stands in none of them.
-/
namespace CatalogGraph.Text
open Json (hexValue?)

/-- The bytes for which a text with percent escapes stands. What is not an escape stands for
itself. -/
def percentBytes : List Char → List UInt8
  | [] => []
  | '%' :: high :: low :: rest =>
    match hexValue? high, hexValue? low with
    | some h, some l => UInt8.ofNat (16 * h + l) :: percentBytes rest
    | _, _ => String.utf8EncodeChar '%' ++ percentBytes (high :: low :: rest)
  | c :: rest => String.utf8EncodeChar c ++ percentBytes rest

/-- The text for which one with percent escapes stands, if its bytes are those of a text. -/
def percentDecode? (s : String) : Option String :=
  String.fromUTF8? (percentBytes s.toList).toByteArray

/-- The characters that need an escape nowhere: letters and digits of ASCII and four marks. -/
def IsUnreserved (c : Char) : Prop := c.isAlphanum ∨ c ∈ ['-', '.', '_', '~']

/-- The marks that separate parts within a segment. -/
def IsSubDelimiter (c : Char) : Prop :=
  c ∈ ['!', '$', '&', '\'', '(', ')', '*', '+', ',', ';', '=']

/-- A segment of a path, with escapes in upper case. -/
inductive IsSegment : List Char → Prop
  | nil : IsSegment []
  | plain {c rest} (allowed : IsUnreserved c ∨ IsSubDelimiter c ∨ c = ':' ∨ c = '@')
      (later : IsSegment rest) : IsSegment (c :: rest)
  | escape {high low rest} (digits : high ∈ "0123456789ABCDEF".toList)
      (digits' : low ∈ "0123456789ABCDEF".toList) (later : IsSegment rest) :
      IsSegment ('%' :: high :: low :: rest)

variable {c : Char} {cs rest : List Char} {s t : String}

/-! ### Reading escapes -/

theorem hexValue?_upperHexDigit : ∀ n < 16, hexValue? (upperHexDigit n) = some n := by decide

theorem hexDigits_lt (b : UInt8) : b.toNat / 16 < 16 ∧ b.toNat % 16 < 16 := by
  have := b.toNat_lt
  omega

theorem percentBytes_percentByte (b : UInt8) (rest : List Char) :
    percentBytes (percentByte b ++ rest) = b :: percentBytes rest := by
  obtain ⟨high, low⟩ := hexDigits_lt b
  have digits : 16 * (b.toNat / 16) + b.toNat % 16 = b.toNat := Nat.div_add_mod _ _
  simp only [percentByte, List.cons_append, List.nil_append, percentBytes,
    hexValue?_upperHexDigit _ high, hexValue?_upperHexDigit _ low, digits, UInt8.ofNat_toNat]

theorem percentBytes_flatMap_percentByte (bytes : List UInt8) (rest : List Char) :
    percentBytes (bytes.flatMap percentByte ++ rest) = bytes ++ percentBytes rest := by
  induction bytes with
  | nil => rfl
  | cons b bytes ih =>
    rw [List.flatMap_cons, List.append_assoc, percentBytes_percentByte, ih, List.cons_append]

theorem percentBytes_cons (other : c ≠ '%') (rest : List Char) :
    percentBytes (c :: rest) = String.utf8EncodeChar c ++ percentBytes rest := by
  rw [percentBytes]
  rintro _ _ _ rfl
  exact absurd rfl other

theorem percentBytes_percentChar (c : Char) (rest : List Char) :
    percentBytes (percentChar c ++ rest) = String.utf8EncodeChar c ++ percentBytes rest := by
  cases plain : isSegmentChar c with
  | true =>
    have other : c ≠ '%' := by
      rintro rfl
      cases plain
    rw [percentChar_of_isSegmentChar plain, List.singleton_append, percentBytes_cons other]
  | false =>
    rw [percentChar, if_neg (by simp [plain]), percentBytes_flatMap_percentByte]

theorem percentBytes_flatMap_percentChar (cs : List Char) :
    percentBytes (cs.flatMap percentChar) = cs.flatMap String.utf8EncodeChar := by
  induction cs with
  | nil => rfl
  | cons c cs ih => rw [List.flatMap_cons, percentBytes_percentChar, ih, List.flatMap_cons]

/-- An escaped text is read back. -/
theorem percentDecode?_percentEscape (s : String) : percentDecode? (percentEscape s) = some s := by
  have bytes : (percentBytes (percentEscape s).toList).toByteArray = s.toByteArray := by
    rw [percentEscape, String.toList_ofList, percentBytes_flatMap_percentChar]
    conv_rhs => rw [← s.ofList_toList, String.toByteArray_ofList]
    rfl
  unfold percentDecode? String.fromUTF8?
  rw [bytes, dif_pos s.isValidUTF8]
  rfl

theorem percentEscape_inj : percentEscape s = percentEscape t ↔ s = t := by
  constructor
  · intro same
    have back := percentDecode?_percentEscape s
    rw [same, percentDecode?_percentEscape] at back
    exact (Option.some.inj back).symm
  · rintro rfl
    rfl

/-! ### The characters of escapes -/

theorem isSegmentChar_iff :
    isSegmentChar c = true ↔ IsUnreserved c ∨ IsSubDelimiter c ∨ c = ':' ∨ c = '@' := by
  simp only [isSegmentChar, IsUnreserved, IsSubDelimiter, Bool.or_eq_true, List.contains_iff_mem,
    List.mem_cons, List.not_mem_nil, or_false, or_assoc]

theorem upperHexDigit_mem : ∀ n < 16, upperHexDigit n ∈ "0123456789ABCDEF".toList := by decide

theorem IsSegment.append (first : IsSegment cs) (later : IsSegment rest) :
    IsSegment (cs ++ rest) := by
  induction first with
  | nil => exact later
  | plain allowed _ ih => exact .plain allowed ih
  | escape digits digits' _ ih => exact .escape digits digits' ih

theorem isSegment_percentByte (b : UInt8) : IsSegment (percentByte b) := by
  obtain ⟨high, low⟩ := hexDigits_lt b
  exact .escape (upperHexDigit_mem _ high) (upperHexDigit_mem _ low) .nil

theorem isSegment_flatMap {α : Type} {f : α → List Char} {xs : List α}
    (each : ∀ x ∈ xs, IsSegment (f x)) : IsSegment (xs.flatMap f) := by
  induction xs with
  | nil => exact .nil
  | cons x xs ih =>
    obtain ⟨first, later⟩ := List.forall_mem_cons.mp each
    exact first.append (ih later)

theorem isSegment_percentChar (c : Char) : IsSegment (percentChar c) := by
  cases plain : isSegmentChar c with
  | true =>
    rw [percentChar_of_isSegmentChar plain]
    exact .plain (isSegmentChar_iff.mp plain) .nil
  | false =>
    rw [percentChar, if_neg (by simp [plain])]
    exact isSegment_flatMap fun b _ => isSegment_percentByte b

/-- An escaped text is a segment. -/
theorem isSegment_percentEscape (s : String) : IsSegment (percentEscape s).toList := by
  rw [percentEscape, String.toList_ofList]
  exact isSegment_flatMap fun c _ => isSegment_percentChar c

/-- No slash stands in a segment. -/
theorem IsSegment.slash_notMem (segment : IsSegment cs) : '/' ∉ cs := by
  induction segment with
  | nil => exact List.not_mem_nil
  | plain allowed _ ih =>
    rw [List.mem_cons, not_or]
    refine ⟨?_, ih⟩
    rintro rfl
    exact absurd (isSegmentChar_iff.mpr allowed) (by decide)
  | escape digits digits' _ ih =>
    have other {digit : Char} (mem : digit ∈ "0123456789ABCDEF".toList) : '/' ≠ digit := by
      rintro rfl
      exact absurd mem (by decide)
    simp [ih, other digits, other digits']

end CatalogGraph.Text
