import VoxelCurve.Proofs.Decimal.Written
import VoxelCurve.Proofs.Json.RoundTrip
import VoxelCurve.Proofs.Text.Whole

/-!
Documents that have bytes.

Escaping a text leaves the halves of a pair next to each other, and all that the printer puts
around a text are plain characters, and so are words and numbers.  So whatever is made of whole
texts has bytes, piece by piece, and writing it never stops before its end.
-/

namespace VoxelCurve
namespace Json

open Text (Whole half? Piece)

/-- Whether a value is made of whole texts. -/
inductive Worded : Value → Prop
  | null : Worded .null
  | bool {b : Bool} : Worded (.bool b)
  | int {n : Int} : Worded (.int n)
  | float {x : Float} : Worded (.float x)
  | text {s : String} (whole : Whole s.toList) : Worded (.text s)
  | list {items : List Value} (each : ∀ v ∈ items, Worded v) : Worded (.list items)
  | object {fields : Fields} (names : ∀ f ∈ fields, Whole f.1.toList)
    (each : ∀ f ∈ fields, Worded f.2) : Worded (.object fields)

/-! ## Escapes -/

theorem half?_hexDigit (n : Nat) : half? (Text.hexDigit (n % 16)) = none := by
  have hall : ∀ k < 16, half? (Text.hexDigit k) = none := by decide +kernel
  exact hall _ (Nat.mod_lt n (by decide))

/-- What stands for a character is whole if the character is. -/
theorem whole_escapedChar {c : Char} (hc : half? c = none) : Whole (escapedChar c) := by
  cases hletter : escapeLetter? c with
  | some letter =>
    rw [escapedChar, hletter]
    unfold escapeLetter? at hletter
    split at hletter <;> cases hletter <;> exact Text.whole_of_all (by decide +kernel)
  | none =>
    rw [escapedChar, hletter]
    by_cases hcontrol : c.toNat < 0x20
    · show Whole (if c.toNat < 0x20 then '\\' :: 'u' :: Text.hexDigits 4 c.toNat else [c])
      rw [if_pos hcontrol, hexDigits_four]
      refine Text.whole_of_forall ?_
      simp only [List.forall_mem_cons, half?_hexDigit]
      exact ⟨by decide +kernel, by decide +kernel, trivial, trivial, trivial, trivial,
        List.forall_mem_nil _⟩
    · show Whole (if c.toNat < 0x20 then '\\' :: 'u' :: Text.hexDigits 4 c.toNat else [c])
      rw [if_neg hcontrol]
      exact .single hc .nil

/-- Half of a pair is written as it is. -/
theorem escapedChar_of_half? {c : Char} {n : Nat} (h : half? c = some n) : escapedChar c = [c] := by
  have htaken : 0x10D800 ≤ c.toNat := by
    unfold half? at h
    split at h
    · next htaken => exact (Text.isTaken_iff.mp htaken).1
    · cases h
  have hletter : escapeLetter? c = none := by
    unfold escapeLetter?
    split <;> first | rfl | exact absurd htaken (by decide)
  rw [escapedChar, hletter]
  exact if_neg (by omega)

theorem whole_flatMap_escapedChar {s : List Char} (h : Whole s) :
    Whole (s.flatMap escapedChar) := by
  induction h with
  | nil => exact .nil
  | single hc _ ih =>
    rw [List.flatMap_cons]
    exact (whole_escapedChar hc).append ih
  | @pair c d n s hpair _ ih =>
    obtain ⟨high, low, hc, hd⟩ := Text.exists_half?_of_takenPair? hpair
    rw [List.flatMap_cons, List.flatMap_cons, escapedChar_of_half? hc, escapedChar_of_half? hd]
    exact .pair hpair ih

theorem whole_textChars {s : String} (h : Whole s.toList) : Whole (textChars s) := by
  have hquote : half? '"' = none := by decide +kernel
  exact .single hquote ((whole_flatMap_escapedChar h).append (.single hquote .nil))

theorem whole_newline (depth : Nat) : Whole (newline depth) := by
  have hline : half? '\n' = none := by decide +kernel
  have hblank : half? ' ' = none := by decide +kernel
  refine .single hline (Text.whole_of_forall ?_)
  intro c hc
  rw [List.eq_of_mem_replicate hc]
  exact hblank

/-- A character and the start of a line, as lists and objects have them before what they hold. -/
theorem whole_lineStart {c : Char} (hc : half? c = none) (depth : Nat) :
    Whole (c :: newline depth) :=
  .single hc (whole_newline depth)

theorem whole_colon : Whole [':', ' '] :=
  Text.whole_of_all (by decide +kernel)

theorem whole_of_isAscii {s : List Char} (h : Decimal.IsAscii s) : Whole s := by
  refine Text.whole_of_forall fun c hc => Text.half?_eq_none ?_
  have hlt := h c hc
  rw [← Bool.not_eq_true, Text.isTaken_iff]
  omega

/-! ## Pieces -/

theorem whole_putBefore {start : Piece} (hstart : Whole start.chars) (v : Value)
    {ps : List Piece} (h : ∀ p ∈ ps, Whole p.chars) :
    ∀ p ∈ putBefore start v ps, Whole p.chars := by
  unfold putBefore
  split
  · exact List.forall_mem_cons.mpr ⟨hstart, h⟩
  · exact List.forall_mem_cons.mpr ⟨hstart, h⟩
  · obtain ⟨hfirst, hrest⟩ := List.forall_mem_cons.mp h
    exact List.forall_mem_cons.mpr ⟨hstart.append hfirst, hrest⟩
  · exact List.forall_mem_singleton.mpr hstart

theorem whole_itemPieces {items : List Value}
    (h : ∀ v ∈ items, ∀ depth, ∀ p ∈ pieces depth v, Whole p.chars) (depth : Nat) :
    ∀ p ∈ itemPieces depth items, Whole p.chars := by
  have hstart := whole_lineStart (c := ',') (by decide +kernel) depth
  induction items with
  | nil => exact List.forall_mem_nil _
  | cons v items ih =>
    obtain ⟨hv, hitems⟩ := List.forall_mem_cons.mp h
    exact List.forall_mem_append.mpr
      ⟨whole_putBefore hstart v (hv depth), ih hitems⟩

theorem whole_fieldPieces {fields : Fields} (hnames : ∀ f ∈ fields, Whole f.1.toList)
    (h : ∀ f ∈ fields, ∀ depth, ∀ p ∈ pieces depth f.2, Whole p.chars) (depth : Nat) :
    ∀ p ∈ fieldPieces depth fields, Whole p.chars := by
  have hstart := whole_lineStart (c := ',') (by decide +kernel) depth
  induction fields with
  | nil => exact List.forall_mem_nil _
  | cons f fields ih =>
    obtain ⟨name, v⟩ := f
    obtain ⟨hname, hnames⟩ := List.forall_mem_cons.mp hnames
    obtain ⟨hv, hfields⟩ := List.forall_mem_cons.mp h
    rw [fieldPieces]
    refine List.forall_mem_append.mpr ⟨List.forall_mem_append.mpr ⟨?_, hv depth⟩, ih hnames hfields⟩
    simp only [List.map_cons, List.map_nil, List.forall_mem_cons]
    exact ⟨hstart, whole_textChars hname, whole_colon, List.forall_mem_nil _⟩

theorem Worded.whole_pieces {v : Value} (h : Worded v) :
    ∀ depth, ∀ p ∈ pieces depth v, Whole p.chars := by
  induction h with
  | null =>
    have hword : Whole "null".toList := Text.whole_of_all (by decide +kernel)
    exact fun _ => List.forall_mem_singleton.mpr hword
  | @bool b =>
    have htrue : Whole "true".toList := Text.whole_of_all (by decide +kernel)
    have hfalse : Whole "false".toList := Text.whole_of_all (by decide +kernel)
    intro depth
    cases b with
    | true => exact List.forall_mem_singleton.mpr htrue
    | false => exact List.forall_mem_singleton.mpr hfalse
  | @int n =>
    exact fun _ => List.forall_mem_singleton.mpr (whole_of_isAscii (Decimal.isAscii_toString n))
  | @float x =>
    have hnan : Decimal.IsAscii floatWords.nan.toList := Decimal.isAscii_of_all (by decide)
    have hinfinity : Decimal.IsAscii floatWords.infinity.toList :=
      Decimal.isAscii_of_all (by decide)
    have hwritten := Decimal.isAscii_written hnan hinfinity x
    exact fun _ => List.forall_mem_singleton.mpr (whole_of_isAscii hwritten)
  | text whole => exact fun _ => List.forall_mem_singleton.mpr (whole_textChars whole)
  | @list items each ih =>
    intro depth
    cases items with
    | nil =>
      have hempty : Whole ['[', ']'] := Text.whole_of_all (by decide +kernel)
      exact List.forall_mem_singleton.mpr hempty
    | cons v items =>
      obtain ⟨hv, hitems⟩ := List.forall_mem_cons.mp ih
      have hopen := whole_lineStart (c := '[') (by decide +kernel) (depth + 1)
      have hclose : Whole [']'] := Text.whole_of_all (by decide +kernel)
      rw [pieces]
      refine List.forall_mem_append.mpr ⟨List.forall_mem_append.mpr ⟨?_, ?_⟩, ?_⟩
      · exact whole_putBefore hopen v (hv _)
      · exact whole_itemPieces hitems _
      · exact List.forall_mem_cons.mpr ⟨whole_newline _, List.forall_mem_singleton.mpr hclose⟩
  | @object fields names each ih =>
    intro depth
    cases fields with
    | nil =>
      have hempty : Whole ['\x7b', '\x7d'] := Text.whole_of_all (by decide +kernel)
      exact List.forall_mem_singleton.mpr hempty
    | cons f fields =>
      obtain ⟨name, v⟩ := f
      obtain ⟨hname, hnames⟩ := List.forall_mem_cons.mp names
      obtain ⟨hv, hfields⟩ := List.forall_mem_cons.mp ih
      have hopen : Whole ['\x7b'] := Text.whole_of_all (by decide +kernel)
      have hclose : Whole ['\x7d'] := Text.whole_of_all (by decide +kernel)
      rw [pieces]
      refine List.forall_mem_append.mpr ⟨List.forall_mem_append.mpr
        ⟨List.forall_mem_append.mpr ⟨?_, hv _⟩, whole_fieldPieces hnames hfields _⟩, ?_⟩
      · simp only [List.map_cons, List.map_nil, List.forall_mem_cons]
        exact ⟨hopen, whole_newline _, whole_textChars hname, whole_colon, List.forall_mem_nil _⟩
      · exact List.forall_mem_cons.mpr ⟨whole_newline _, List.forall_mem_singleton.mpr hclose⟩

theorem Worded.encodable {v : Value} (h : Worded v) :
    (printedPieces v).all Text.isEncodable = true := by
  rw [List.all_eq_true]
  intro s hs
  obtain ⟨p, hp, rfl⟩ := List.mem_map.mp hs
  refine Text.isEncodable_of_whole ?_
  rw [Piece.text, String.toList_ofList]
  exact h.whole_pieces 0 p hp

end Json
end VoxelCurve
