import VoxelCurve.Vox.Decoding
import VoxelCurve.Vox.Encoding

/-!
What a field was read from.

Each field of a model is read off the front of some bytes.  It comes out exactly when the
bytes begin with what the field is written as, and this holds for words, for runs of groups
of four bytes, and for the three contents that are put together from them.  The statements
are equivalences: read from right to left they say that what was written is read back, and
from left to right that nothing but these bytes was looked at.
-/

namespace VoxelCurve
namespace Vox

/-! ## Words -/

theorem wordBytes_wordOf (a b c d : UInt8) : wordBytes (wordOf a b c d) = [a, b, c, d] := by
  have ha := a.toNat_lt
  have hb := b.toNat_lt
  have hc := c.toNat_lt
  have hd := d.toNat_lt
  have hw : (wordOf a b c d).toNat =
      a.toNat + 0x100 * (b.toNat + 0x100 * (c.toNat + 0x100 * d.toNat)) := by
    rw [wordOf, UInt32.toNat_ofNat_of_lt']
    show _ < 2 ^ 32
    omega
  simp only [wordBytes, hw, List.cons.injEq, and_true]
  refine ⟨?_, ?_, ?_, ?_⟩ <;> apply UInt8.toNat_inj.mp <;> rw [UInt8.toNat_ofNat'] <;> omega

theorem readWord?_eq_some_iff {s rest : List UInt8} {w : UInt32} :
    readWord? s = some (w, rest) ↔ s = wordBytes w ++ rest := by
  constructor
  · intro h
    unfold readWord? at h
    split at h
    · simp only [Option.some.injEq, Prod.mk.injEq] at h
      rw [← h.1, ← h.2, wordBytes_wordOf]
      rfl
    · cases h
  · intro h
    obtain rfl := h
    exact readWord?_wordBytes w rest

/-- A word is read wherever there are four bytes. -/
theorem exists_readWord?_iff {s : List UInt8} :
    (∃ r, readWord? s = some r) ↔ 4 ≤ s.length := by
  constructor
  · intro h
    obtain ⟨⟨w, rest⟩, h⟩ := h
    have := length_of_readWord? h
    omega
  · intro h
    match s with
    | a :: b :: c :: d :: rest => exact ⟨(wordOf a b c d, rest), rfl⟩
    | [] | [_] | [_, _] | [_, _, _] => simp at h

/-- Where nothing is read, the bytes do not suffice. -/
theorem lt_of_eq_none {α : Type} {r : Option α} {wanted length : Nat} (hr : r = none)
    (h : (∃ x, r = some x) ↔ wanted ≤ length) : length < wanted := by
  apply Nat.lt_of_not_le
  intro hle
  obtain ⟨x, hx⟩ := h.mpr hle
  rw [hr] at hx
  cases hx

/-- Where the bytes do not suffice, nothing is read. -/
theorem eq_none_of_lt {α : Type} {r : Option α} {wanted length : Nat} (hlt : length < wanted)
    (h : (∃ x, r = some x) ↔ wanted ≤ length) : r = none := by
  cases r with
  | none => rfl
  | some x => exact absurd (h.mp ⟨x, rfl⟩) (Nat.not_le_of_lt hlt)

theorem toNat_ofNat_of_le_maxWord {n : Nat} (h : n ≤ maxWord) : (UInt32.ofNat n).toNat = n :=
  UInt32.toNat_ofNat_of_lt' (Nat.lt_succ_of_le h)

/-! ## Runs of groups of four bytes

`bytes` writes what `make` makes, and everything is made in this way. -/

section Quads

variable {α : Type} {make : UInt8 → UInt8 → UInt8 → UInt8 → α} {bytes : α → List UInt8}

theorem length_flatMap_quads (h : ∀ x, (bytes x).length = 4) (xs : List α) :
    (xs.flatMap bytes).length = 4 * xs.length := by
  induction xs with
  | nil => rfl
  | cons x xs ih =>
    rw [List.flatMap_cons, List.length_append, List.length_cons, h, ih]
    omega

theorem readQuads?_flatMap (hb : ∀ a b c d, bytes (make a b c d) = [a, b, c, d])
    (hm : ∀ x, ∃ a b c d, x = make a b c d) (xs acc : List α) (rest : List UInt8) :
    readQuads? make xs.length (xs.flatMap bytes ++ rest) acc = some (acc.reverse ++ xs) := by
  induction xs generalizing acc with
  | nil => simp only [List.length_nil, readQuads?, List.append_nil]
  | cons x xs ih =>
    obtain ⟨a, b, c, d, rfl⟩ := hm x
    rw [List.flatMap_cons, hb, List.append_assoc, List.length_cons]
    show readQuads? make xs.length (xs.flatMap bytes ++ rest) (make a b c d :: acc) = _
    rw [ih, List.reverse_cons, List.append_assoc]
    rfl

theorem of_readQuads?_eq_some (hb : ∀ a b c d, bytes (make a b c d) = [a, b, c, d]) {n : Nat}
    {s : List UInt8} {acc xs : List α} (h : readQuads? make n s acc = some xs) :
    ∃ ys rest, xs = acc.reverse ++ ys ∧ ys.length = n ∧ s = ys.flatMap bytes ++ rest := by
  fun_induction readQuads? make n s acc with
  | case1 s acc =>
    simp only [Option.some.injEq] at h
    exact ⟨[], s, by rw [h, List.append_nil], rfl, rfl⟩
  | case2 n a b c d s acc ih =>
    obtain ⟨ys, rest, hxs, hn, hs⟩ := ih h
    refine ⟨make a b c d :: ys, rest, ?_, ?_, ?_⟩
    · rw [hxs, List.reverse_cons, List.append_assoc]
      rfl
    · rw [List.length_cons, hn]
    · rw [hs, List.flatMap_cons, hb]
      rfl
  | case3 => cases h

theorem readQuads?_eq_some_iff (hb : ∀ a b c d, bytes (make a b c d) = [a, b, c, d])
    (hm : ∀ x, ∃ a b c d, x = make a b c d) {n : Nat} {s : List UInt8} {xs : List α} :
    readQuads? make n s [] = some xs ↔
      xs.length = n ∧ ∃ rest, s = xs.flatMap bytes ++ rest := by
  constructor
  · intro h
    obtain ⟨ys, rest, rfl, hn, hs⟩ := of_readQuads?_eq_some hb h
    exact ⟨hn, rest, hs⟩
  · intro h
    obtain ⟨rfl, rest, rfl⟩ := h
    exact readQuads?_flatMap hb hm xs [] rest

/-- A run is read wherever there are bytes enough. -/
theorem exists_readQuads?_iff {n : Nat} {s : List UInt8} {acc : List α} :
    (∃ xs, readQuads? make n s acc = some xs) ↔ 4 * n ≤ s.length := by
  fun_induction readQuads? make n s acc with
  | case1 s acc => simp
  | case2 n a b c d s acc ih =>
    rw [ih]
    simp only [List.length_cons]
    omega
  | case3 n s acc h =>
    have hs : s.length < 4 := by
      match s, h with
      | [], _ | [_], _ | [_, _], _ | [_, _, _], _ => simp
      | a :: b :: c :: d :: rest, h => exact absurd rfl (h a b c d rest)
    simp only [reduceCtorEq, exists_false, false_iff]
    omega

end Quads

/-! ## The contents of the three chunks -/

theorem Entry.bytes_mk (x y z slot : UInt8) : (Entry.mk x y z slot).bytes = [x, y, z, slot] :=
  rfl

theorem Entry.exists_eq_mk (e : Entry) : ∃ x y z slot, e = ⟨x, y, z, slot⟩ :=
  ⟨e.x, e.y, e.z, e.slot, rfl⟩

theorem toList_ofBytes (r g b a : UInt8) : (Rgba.ofBytes r g b a).toList = [r, g, b, a] :=
  rfl

theorem exists_eq_ofBytes (color : Rgba) : ∃ r g b a, color = Rgba.ofBytes r g b a := by
  refine ⟨color[0], color[1], color[2], color[3], ?_⟩
  apply Vector.ext
  intro i hi
  have hplace : i = 0 ∨ i = 1 ∨ i = 2 ∨ i = 3 := by omega
  rcases hplace with rfl | rfl | rfl | rfl <;> rfl

theorem readSides?_eq_some_iff {s : List UInt8} {width depth height : UInt32} :
    readSides? s = some (width, depth, height) ↔
      ∃ rest, s = wordBytes width ++ wordBytes depth ++ wordBytes height ++ rest := by
  simp only [readSides?, Option.bind_eq_bind, Option.bind_eq_some_iff, Prod.exists,
    readWord?_eq_some_iff, Option.some.injEq, Prod.mk.injEq]
  constructor
  · intro h
    obtain ⟨w, _, rfl, d, _, rfl, h, rest, rfl, rfl, rfl, rfl⟩ := h
    exact ⟨rest, by simp only [List.append_assoc]⟩
  · intro h
    obtain ⟨rest, rfl⟩ := h
    exact ⟨width, _, by simp only [List.append_assoc], depth, _, rfl, height, rest, rfl, rfl,
      rfl, rfl⟩

theorem exists_readSides?_iff {s : List UInt8} :
    (∃ sides, readSides? s = some sides) ↔ 12 ≤ s.length := by
  constructor
  · intro h
    obtain ⟨⟨width, depth, height⟩, h⟩ := h
    obtain ⟨rest, rfl⟩ := readSides?_eq_some_iff.mp h
    simp only [List.length_append, length_wordBytes]
    omega
  · intro h
    obtain ⟨⟨width, s₁⟩, h₁⟩ := exists_readWord?_iff.mpr (show 4 ≤ s.length by omega)
    have l₁ := length_of_readWord? h₁
    obtain ⟨⟨depth, s₂⟩, h₂⟩ := exists_readWord?_iff.mpr (show 4 ≤ s₁.length by omega)
    have l₂ := length_of_readWord? h₂
    obtain ⟨⟨height, s₃⟩, h₃⟩ := exists_readWord?_iff.mpr (show 4 ≤ s₂.length by omega)
    refine ⟨(width, depth, height), readSides?_eq_some_iff.mpr ⟨s₃, ?_⟩⟩
    rw [readWord?_eq_some_iff.mp h₁, readWord?_eq_some_iff.mp h₂, readWord?_eq_some_iff.mp h₃]
    simp only [List.append_assoc]

theorem readPalette?_eq_some_iff {s : List UInt8} {p : Palette} :
    readPalette? s = some p ↔ ∃ rest, s = p.bytes ++ rest := by
  simp only [readPalette?, Option.bind_eq_bind, Option.bind_eq_some_iff,
    readQuads?_eq_some_iff toList_ofBytes exists_eq_ofBytes]
  constructor
  · intro h
    obtain ⟨colors, ⟨hl, rest, rfl⟩, h⟩ := h
    rw [dif_pos hl] at h
    cases h
    exact ⟨rest, rfl⟩
  · intro h
    obtain ⟨rest, rfl⟩ := h
    refine ⟨p.toList, ⟨p.length_toList, rest, rfl⟩, ?_⟩
    rw [dif_pos p.length_toList]
    exact congrArg some (Vector.toArray_inj.mp Vector.toArray_toList)

theorem exists_readPalette?_iff {s : List UInt8} :
    (∃ p, readPalette? s = some p) ↔ 1024 ≤ s.length := by
  have hq : (∃ colors, readQuads? Rgba.ofBytes 256 s [] = some colors) ↔ 4 * 256 ≤ s.length :=
    exists_readQuads?_iff
  constructor
  · intro h
    obtain ⟨p, h⟩ := h
    simp only [readPalette?, Option.bind_eq_bind, Option.bind_eq_some_iff] at h
    obtain ⟨colors, h, -⟩ := h
    exact hq.mp ⟨colors, h⟩
  · intro h
    obtain ⟨colors, h⟩ := hq.mpr h
    have hl := ((readQuads?_eq_some_iff toList_ofBytes exists_eq_ofBytes).mp h).1
    refine ⟨⟨colors.toArray, by simpa using hl⟩, ?_⟩
    simp only [readPalette?, h, Option.bind_eq_bind, Option.bind_some, dif_pos hl]

/-- The voxels come out exactly when their number and they themselves stand there. -/
theorem readVoxels_eq_ok_iff {total : Nat} {w : Window} {voxels : List Entry} :
    readVoxels total w = .ok voxels ↔
      voxels.length ≤ maxWord ∧ ∃ rest, w.bytes =
        wordBytes (UInt32.ofNat voxels.length) ++ voxels.flatMap Entry.bytes ++ rest := by
  constructor
  · intro h
    unfold readVoxels at h
    split at h
    · cases h
    · next count s hw =>
      split at h
      · cases h
      · next found hq =>
        cases h
        obtain ⟨hl, rest, rfl⟩ :=
          (readQuads?_eq_some_iff Entry.bytes_mk Entry.exists_eq_mk).mp hq
        refine ⟨?_, rest, ?_⟩
        · rw [hl]
          exact Nat.le_of_lt_succ count.toNat_lt
        · rw [readWord?_eq_some_iff.mp hw, hl, UInt32.ofNat_toNat, List.append_assoc]
  · intro h
    obtain ⟨hl, rest, hw⟩ := h
    rw [List.append_assoc] at hw
    have hq := readQuads?_flatMap Entry.bytes_mk Entry.exists_eq_mk voxels [] rest
    simp only [readVoxels, hw, readWord?_wordBytes, toNat_ofNat_of_le_maxWord hl, hq]
    rfl

/-! ## The contents of a model -/

namespace Model

theorem length_sizeBytes (m : Model) : m.sizeBytes.length = 12 := by
  simp only [sizeBytes, List.length_append, length_wordBytes]

theorem length_voxelBytes (m : Model) : m.voxelBytes.length = 4 + 4 * m.numVoxels := by
  rw [voxelBytes, List.length_append, length_wordBytes, length_flatMap_quads (fun _ => rfl),
    numVoxels]

theorem length_paletteBytes (m : Model) : m.palette.bytes.length = 1024 := by
  rw [Palette.bytes, length_flatMap_quads (fun c => c.length_toList), m.palette.length_toList]

theorem sizeBytes_prefix {m : Model} {s : List UInt8}
    (h : readSides? s = some (m.width, m.depth, m.height)) : m.sizeBytes <+: s := by
  obtain ⟨rest, hs⟩ := readSides?_eq_some_iff.mp h
  exact ⟨rest, hs.symm⟩

theorem voxelBytes_prefix {m : Model} {total : Nat} {w : Window}
    (h : readVoxels total w = .ok m.voxels) : m.voxelBytes <+: w.bytes := by
  obtain ⟨-, rest, hw⟩ := readVoxels_eq_ok_iff.mp h
  exact ⟨rest, hw.symm⟩

theorem paletteBytes_prefix {m : Model} {s : List UInt8}
    (h : readPalette? s = some m.palette) : m.palette.bytes <+: s := by
  obtain ⟨rest, hs⟩ := readPalette?_eq_some_iff.mp h
  exact ⟨rest, hs.symm⟩

theorem readSides?_of_prefix {m : Model} {s : List UInt8} (h : m.sizeBytes <+: s) :
    readSides? s = some (m.width, m.depth, m.height) := by
  obtain ⟨rest, hs⟩ := h
  exact readSides?_eq_some_iff.mpr ⟨rest, hs.symm⟩

theorem readVoxels_of_prefix {m : Model} {w : Window} (hle : m.numVoxels ≤ maxWord)
    (h : m.voxelBytes <+: w.bytes) (total : Nat) : readVoxels total w = .ok m.voxels := by
  obtain ⟨rest, hw⟩ := h
  exact readVoxels_eq_ok_iff.mpr ⟨hle, rest, hw.symm⟩

theorem readPalette?_of_prefix {m : Model} {s : List UInt8} (h : m.palette.bytes <+: s) :
    readPalette? s = some m.palette := by
  obtain ⟨rest, hs⟩ := h
  exact readPalette?_eq_some_iff.mpr ⟨rest, hs.symm⟩

end Model
end Vox
end VoxelCurve
