import VoxelCurve.Proofs.Json.Number
import VoxelCurve.Proofs.Value.Fields

/-!
The limits of the reader.

What the reader answers is within its limits, and it refuses a text by one of them only if the text
has the digits or the brackets for it.  Both are told by one statement about an outcome (`Fair`):
what was read is bounded and what is left is an end of the text, and a refusal by a limit shows in
the text.  Every part of the reader keeps to it, whatever the text.
-/

namespace VoxelCurve
namespace Json

open Decimal (maxIntegerDigits signedDigits)

/-- Whether a value has no integer that is too long, and at most so many lists and objects in one
another. -/
inductive Bounded : Nat → Value → Prop
  | null {depth : Nat} : Bounded depth .null
  | bool {depth : Nat} {b : Bool} : Bounded depth (.bool b)
  | int {depth : Nat} {n : Int} (writable : Value.isWritable n = true) : Bounded depth (.int n)
  | float {depth : Nat} {x : Float} : Bounded depth (.float x)
  | text {depth : Nat} {s : String} : Bounded depth (.text s)
  | list {depth : Nat} {items : List Value} (each : ∀ v ∈ items, Bounded depth v) :
    Bounded (depth + 1) (.list items)
  | object {depth : Nat} {fields : Fields} (each : ∀ f ∈ fields, Bounded depth f.2) :
    Bounded (depth + 1) (.object fields)

theorem bounded_object_iff {depth : Nat} {fields : Fields} :
    Bounded (depth + 1) (.object fields) ↔ ∀ f ∈ fields, Bounded depth f.2 := by
  refine ⟨fun h => ?_, .object⟩
  cases h with
  | object each => exact each

theorem bounded_list_iff {depth : Nat} {items : List Value} :
    Bounded (depth + 1) (.list items) ↔ ∀ v ∈ items, Bounded depth v := by
  refine ⟨fun h => ?_, .list⟩
  cases h with
  | list each => exact each

theorem bounded_int_iff {depth : Nat} {n : Int} :
    Bounded depth (.int n) ↔ Value.isWritable n = true := by
  refine ⟨fun h => ?_, .int⟩
  cases h with
  | int writable => exact writable

theorem Bounded.mono {depth limit : Nat} {v : Value} (h : Bounded depth v) (hle : depth ≤ limit) :
    Bounded limit v := by
  induction h generalizing limit with
  | null => exact .null
  | bool => exact .bool
  | int writable => exact .int writable
  | float => exact .float
  | text => exact .text
  | list _ ih =>
    obtain ⟨rest, rfl⟩ := Nat.exists_eq_add_of_lt (Nat.lt_of_succ_le hle)
    exact .list fun v hv => ih v hv (by omega)
  | object _ ih =>
    obtain ⟨rest, rfl⟩ := Nat.exists_eq_add_of_lt (Nat.lt_of_succ_le hle)
    exact .object fun f hf => ih f hf (by omega)

/-- How many lists and objects are opened in a text, if none of its brackets stands in quotes. -/
def openings (s : List Char) : Nat :=
  s.countP fun c => c == '[' || c == '\x7b'

/-- Whether more digits stand in a row than an integer may have. -/
def HasLongRun (s : List Char) : Prop :=
  ∃ digits, digits <:+: s ∧ maxIntegerDigits < digits.length ∧ ∀ c ∈ digits, isDigit c = true

/-- Whether an outcome is one that a text can have. -/
def Fair {α : Type} (P : α → Prop) (depth : Nat) (s : List Char) :
    Except ReadFault (α × List Char) → Prop
  | .ok (a, rest) => P a ∧ rest <:+ s
  | .error .tooDeep => depth < openings s
  | .error .integerTooLong => HasLongRun s
  | .error _ => True

section Fair

variable {α β : Type} {P : α → Prop} {Q : β → Prop} {depth : Nat} {s t : List Char}

theorem openings_le (h : s <:+ t) : openings s ≤ openings t :=
  h.sublist.countP_le

theorem HasLongRun.mono (hlong : HasLongRun s) (h : s <:+ t) : HasLongRun t := by
  obtain ⟨digits, hdigits, hrun⟩ := hlong
  exact ⟨digits, hdigits.trans h.isInfix, hrun⟩

theorem Fair.mono {x : Except ReadFault (α × List Char)} (hx : Fair P depth s x) (h : s <:+ t) :
    Fair P depth t x := by
  have hopenings := openings_le h
  cases x with
  | ok p => exact ⟨hx.1, hx.2.trans h⟩
  | error fault =>
    cases fault with
    | notText => trivial
    | malformed => trivial
    | integerTooLong => exact HasLongRun.mono hx h
    | tooDeep => exact Nat.lt_of_lt_of_le hx hopenings

theorem Fair.bind {x : Except ReadFault (α × List Char)}
    {f : α × List Char → Except ReadFault (β × List Char)} (hx : Fair P depth s x)
    (hf : ∀ a rest, P a → Fair Q depth rest (f (a, rest))) : Fair Q depth s (x >>= f) := by
  cases x with
  | ok p => exact (hf p.1 p.2 hx.1).mono hx.2
  | error fault => cases fault <;> exact hx

theorem openings_cons {c : Char} (hc : c = '[' ∨ c = '\x7b') (s : List Char) :
    openings (c :: s) = openings s + 1 := by
  refine List.countP_cons_of_pos ?_
  rcases hc with rfl | rfl <;> rfl

theorem fair_tooDeep {c : Char} (hc : c = '[' ∨ c = '\x7b') (s : List Char) :
    Fair P 0 (c :: s) (.error .tooDeep) := by
  show 0 < openings (c :: s)
  rw [openings_cons hc]
  exact Nat.succ_pos _

/-- What a bracket opens is one deeper. -/
theorem Fair.opened {x : Except ReadFault (α × List Char)} {c : Char} {g : α → β}
    (hc : c = '[' ∨ c = '\x7b') (hx : Fair P depth s x) (hg : ∀ a, P a → Q (g a)) :
    Fair Q (depth + 1) (c :: s) (x >>= fun p => .ok (g p.1, p.2)) := by
  cases x with
  | ok p => exact ⟨hg p.1 hx.1, hx.2.trans (List.suffix_cons c s)⟩
  | error fault =>
    cases fault with
    | notText => trivial
    | malformed => trivial
    | integerTooLong => exact HasLongRun.mono hx (List.suffix_cons c s)
    | tooDeep =>
      show depth + 1 < openings (c :: s)
      rw [openings_cons hc]
      exact Nat.succ_lt_succ hx

end Fair

/-! ## Texts -/

theorem skipSpace_suffix (s : List Char) : skipSpace s <:+ s :=
  List.dropWhile_suffix _

theorem suffix_of_skipSpace {s t : List Char} {c : Char} (h : skipSpace s = c :: t) : t <:+ s := by
  have hcons : t <:+ skipSpace s := h ▸ List.suffix_cons c t
  exact hcons.trans (skipSpace_suffix s)

theorem readUnit?_suffix {s rest : List Char} {n : Nat} (h : readUnit? s = some (n, rest)) :
    rest <:+ s := by
  unfold readUnit? at h
  split at h
  · next a b c d tail =>
    simp only [Option.bind_eq_bind, Option.bind_eq_some_iff] at h
    obtain ⟨_, _, _, _, _, _, _, _, h⟩ := h
    cases h
    exact ⟨[a, b, c, d], rfl⟩
  · cases h

theorem readCodePoint?_suffix {s rest : List Char} {n : Nat}
    (h : readCodePoint? s = some (n, rest)) : rest <:+ s := by
  simp only [readCodePoint?, Option.bind_eq_bind, Option.bind_eq_some_iff] at h
  obtain ⟨⟨high, tail⟩, hhigh, h⟩ := h
  have htail := readUnit?_suffix hhigh
  dsimp only at h
  split at h
  · split at h
    · next more =>
      simp only [Option.bind_eq_some_iff] at h
      obtain ⟨⟨low, after⟩, hlow, h⟩ := h
      dsimp only at h
      split at h
      · simp only [Option.some.injEq, Prod.mk.injEq] at h
        have hmore : more <:+ '\\' :: 'u' :: more := ⟨['\\', 'u'], rfl⟩
        exact h.2 ▸ (readUnit?_suffix hlow).trans (hmore.trans htail)
      · cases h
        exact htail
    · cases h
      exact htail
  · cases h
    exact htail

theorem readText?_suffix {fuel : Nat} {s rest acc chars : List Char}
    (h : readText? fuel s acc = some (chars, rest)) : rest <:+ s := by
  induction fuel generalizing s acc with
  | zero => cases h
  | succ fuel ih =>
    cases s with
    | nil => cases h
    | cons c s =>
      have hcons := List.suffix_cons c s
      rw [readText?.eq_def] at h
      dsimp only at h
      split at h
      · cases h
        exact hcons
      · split at h
        · split at h
          · next more =>
            simp only [Option.bind_eq_bind, Option.bind_eq_some_iff] at h
            obtain ⟨⟨n, after⟩, hpoint, h⟩ := h
            have hmore := (List.suffix_cons 'u' more).trans hcons
            exact (ih h).trans ((readCodePoint?_suffix hpoint).trans hmore)
          · next letter more _ =>
            simp only [Option.bind_eq_bind, Option.bind_eq_some_iff] at h
            obtain ⟨d, -, h⟩ := h
            exact (ih h).trans ((List.suffix_cons letter more).trans hcons)
          · cases h
        · split at h
          · cases h
          · exact (ih h).trans hcons

/-! ## Scalars -/

theorem takeFraction_suffix (s : List Char) : (takeFraction s).2 <:+ s := by
  unfold takeFraction
  split
  · next rest =>
    dsimp only
    split
    · exact List.suffix_rfl
    · exact (List.dropWhile_suffix _).trans (List.suffix_cons _ _)
  · exact List.suffix_rfl

theorem takeExponent_suffix (s : List Char) : (takeExponent s).2 <:+ s := by
  cases s with
  | nil => exact List.suffix_rfl
  | cons mark s =>
    have hsign : (exponentSign s).2 <:+ s := by
      unfold exponentSign
      split
      · split
        · exact List.suffix_cons _ _
        · exact List.suffix_rfl
      · exact List.suffix_rfl
    rw [takeExponent_cons]
    split
    · split
      · exact List.suffix_rfl
      · exact (List.dropWhile_suffix _).trans (hsign.trans (List.suffix_cons mark s))
    · exact List.suffix_rfl

theorem fair_readNumber (negative : Bool) (depth : Nat) (s : List Char) :
    Fair (Bounded depth) depth s (readNumber negative s) := by
  cases hwhole : takeWhole? s with
  | none =>
    rw [readNumber, hwhole]
    trivial
  | some p =>
    obtain ⟨whole, rest⟩ := p
    obtain ⟨rfl, hne, hdigits⟩ := takeWhole?_eq_some hwhole
    have hrest : (takeExponent (takeFraction rest).2).2 <:+ whole ++ rest :=
      ((takeExponent_suffix _).trans (takeFraction_suffix rest)).trans (List.suffix_append _ _)
    rw [readNumber, hwhole]
    dsimp only
    split
    · next hempty =>
      simp only [Bool.and_eq_true, List.isEmpty_iff] at hempty
      simp only [hempty.1, hempty.2, List.append_nil]
      split
      · next n hread =>
        have hinteger : Decimal.readInteger? (String.ofList (signedDigits negative whole)) =
            some n := hread
        exact ⟨.int (Decimal.isWritable_of_readInteger? hne hdigits hinteger), hrest⟩
      · next hread =>
        refine ⟨whole, (List.prefix_append whole rest).isInfix, ?_, hdigits⟩
        have hnone := Decimal.readInteger?_signedDigits negative hne hdigits
        by_contra hlength
        rw [if_pos (Nat.le_of_not_lt hlength)] at hnone
        exact Option.some_ne_none _ (hnone.symm.trans hread)
    · split
      · exact ⟨.float, hrest⟩
      · trivial

theorem dropWord?_suffix {word : String} {s rest : List Char} (h : dropWord? word s = some rest) :
    rest <:+ s := by
  unfold dropWord? at h
  split at h
  · cases h
    exact List.drop_suffix _ _
  · cases h

theorem fair_readScalar (depth : Nat) (s : List Char) :
    Fair (Bounded depth) depth s (readScalar s) := by
  rw [readScalar_eq]
  cases hword : readWord? s with
  | some found =>
    obtain ⟨w, hw, hfound⟩ := List.exists_of_findSome?_eq_some hword
    obtain ⟨rest, hrest, rfl⟩ := Option.map_eq_some_iff.mp hfound
    have hbounded : ∀ w ∈ words, Bounded depth w.2 := by
      simp only [words, List.forall_mem_cons]
      exact ⟨.null, .bool, .bool, .float, .float, .float, List.forall_mem_nil _⟩
    exact ⟨hbounded w hw, dropWord?_suffix hrest⟩
  | none =>
    show Fair _ _ _ (readSigned s)
    unfold readSigned
    split
    · next rest => exact (fair_readNumber true depth rest).mono (List.suffix_cons _ _)
    · exact fair_readNumber false depth s

/-! ## Values -/

/-- What every part of the reader keeps to with so much fuel. -/
structure FairAt (fuel : Nat) : Prop where
  value : ∀ depth s, Fair (Bounded depth) depth s (readValue depth fuel s)
  items : ∀ depth s, Fair (fun vs => ∀ v ∈ vs, Bounded depth v) depth s (readItems depth fuel s)
  fields : ∀ depth s before, (∀ f ∈ before, Bounded depth f.2) →
    Fair (fun fs => ∀ f ∈ fs, Bounded depth f.2) depth s (readFields depth fuel s before)

variable {fuel : Nat}

theorem FairAt.readValue (h : FairAt fuel) (depth : Nat) (s : List Char) :
    Fair (Bounded depth) depth s (readValue depth (fuel + 1) s) := by
  rw [Json.readValue.eq_def]
  dsimp only
  split
  · next rest =>
    split
    · next text after hread =>
      exact ⟨.text, (readText?_suffix hread).trans (List.suffix_cons _ _)⟩
    · trivial
  · next rest =>
    cases depth with
    | zero => exact fair_tooDeep (.inl rfl) rest
    | succ depth =>
      dsimp only
      split
      · next after heq =>
        exact ⟨.list (List.forall_mem_nil _),
          (suffix_of_skipSpace heq).trans (List.suffix_cons _ _)⟩
      · exact ((h.items depth _).mono (skipSpace_suffix rest)).opened (.inl rfl) fun _ => .list
  · next rest =>
    cases depth with
    | zero => exact fair_tooDeep (.inr rfl) rest
    | succ depth =>
      have hfields := h.fields depth (skipSpace rest) [] (List.forall_mem_nil _)
      dsimp only
      split
      · next after heq =>
        exact ⟨.object (List.forall_mem_nil _),
          (suffix_of_skipSpace heq).trans (List.suffix_cons _ _)⟩
      · exact (hfields.mono (skipSpace_suffix rest)).opened (.inr rfl) fun _ => .object
  · exact fair_readScalar depth s

theorem FairAt.readItems (h : FairAt fuel) (depth : Nat) (s : List Char) :
    Fair (fun vs => ∀ v ∈ vs, Bounded depth v) depth s (readItems depth (fuel + 1) s) := by
  rw [Json.readItems]
  refine (h.value depth s).bind fun v rest hv => ?_
  dsimp only
  split
  · next after heq => exact ⟨List.forall_mem_singleton.mpr hv, suffix_of_skipSpace heq⟩
  · next more heq =>
    have hmore := (skipSpace_suffix more).trans (suffix_of_skipSpace heq)
    refine ((h.items depth _).bind fun vs after hvs => ?_).mono hmore
    exact ⟨List.forall_mem_cons.mpr ⟨hv, hvs⟩, List.suffix_rfl⟩
  · trivial

theorem FairAt.readFields (h : FairAt fuel) (depth : Nat) (s : List Char) {before : Fields}
    (hbefore : ∀ f ∈ before, Bounded depth f.2) :
    Fair (fun fs => ∀ f ∈ fs, Bounded depth f.2) depth s
      (readFields depth (fuel + 1) s before) := by
  rw [Json.readFields.eq_def]
  dsimp only
  split
  · next rest =>
    split
    · trivial
    · next name after hread =>
      have hname := (readText?_suffix hread).trans (List.suffix_cons '"' rest)
      split
      · next body heq =>
        have hbody := (skipSpace_suffix body).trans (suffix_of_skipSpace heq)
        refine ((h.value depth _).bind fun v tail hv => ?_).mono (hbody.trans hname)
        have hset : ∀ f ∈ before.set (String.ofList name) v, Bounded depth f.2 :=
          Fields.forall_mem_set hbefore hv
        dsimp only
        split
        · next heq => exact ⟨hset, suffix_of_skipSpace heq⟩
        · next more heq =>
          have hmore := (skipSpace_suffix more).trans (suffix_of_skipSpace heq)
          exact (h.fields depth _ _ hset).mono hmore
        · trivial
      · trivial
  · trivial

theorem fairAt (fuel : Nat) : FairAt fuel := by
  induction fuel with
  | zero => exact ⟨fun _ _ => trivial, fun _ _ => trivial, fun _ _ _ _ => trivial⟩
  | succ fuel ih => exact ⟨ih.readValue, ih.readItems, fun depth s _ => ih.readFields depth s⟩

/-! ## Documents -/

theorem fair_read (depth : Nat) (text : String) :
    Fair (Bounded depth) depth text.toList ((read depth text).map (·, [])) := by
  have hvalue := ((fairAt (2 * (skipSpace text.toList).length + 1)).value depth
    (skipSpace text.toList)).mono (skipSpace_suffix _)
  have hread : (read depth text).map (·, ([] : List Char)) =
      (readValue depth (2 * (skipSpace text.toList).length + 1) (skipSpace text.toList) >>=
        fun p => if (skipSpace p.2).isEmpty then .ok (p.1, []) else .error .malformed) := by
    rw [read]
    cases readValue depth (2 * (skipSpace text.toList).length + 1) (skipSpace text.toList) with
    | error fault => rfl
    | ok p =>
      show (if (skipSpace p.2).isEmpty then Except.ok p.1 else .error .malformed).map (·, []) =
        if (skipSpace p.2).isEmpty then .ok (p.1, []) else .error ReadFault.malformed
      split <;> rfl
  rw [hread]
  refine hvalue.bind fun v rest hv => ?_
  dsimp only
  split
  · exact ⟨hv, List.nil_suffix⟩
  · trivial

/-- Nothing is read that is beyond the limits. -/
theorem bounded_of_read {depth : Nat} {text : String} {v : Value} (h : read depth text = .ok v) :
    Bounded depth v := by
  have hfair := fair_read depth text
  rw [h] at hfair
  exact hfair.1

theorem bounded_of_readBytes {depth : Nat} {bytes : List UInt8} {v : Value}
    (h : readBytes depth bytes = .ok v) : Bounded depth v := by
  rw [readBytes] at h
  split at h
  · exact bounded_of_read h
  · cases h

/-- A text that stays within the limits is never refused by one. -/
theorem readBytes_ne_limit {depth : Nat} {bytes : List UInt8}
    (h : ∀ text, Text.ofUtf8? bytes = some text →
      openings text.toList ≤ depth ∧ ¬HasLongRun text.toList) :
    readBytes depth bytes ≠ .error .tooDeep ∧ readBytes depth bytes ≠ .error .integerTooLong := by
  cases htext : Text.ofUtf8? bytes with
  | none =>
    have hread : readBytes depth bytes = .error .notText := by
      rw [readBytes, htext]
    rw [hread]
    simp
  | some text =>
    have hread : readBytes depth bytes = read depth text := by
      rw [readBytes, htext]
    obtain ⟨hopenings, hrun⟩ := h text htext
    have hfair := fair_read depth text
    rw [hread]
    refine ⟨fun hdeep => ?_, fun hlong => ?_⟩
    · rw [hdeep] at hfair
      exact Nat.not_lt_of_le hopenings hfair
    · rw [hlong] at hfair
      exact hrun hfair

end Json
end VoxelCurve
