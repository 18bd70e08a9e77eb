import VoxelCurve.Proofs.Volume.Contents
import VoxelCurve.Volume.Flat

/-!
Slices of a run of bytes, and the windows of records.

Everything about slices is said one byte at a time: `getElem?_read` and `getElem?_write` say where
a byte comes from, and the rest follows by comparing places.  The windows of two records have no
place in common, because a number times a width leaves room for a whole width before the next
number, and together the windows are all of the bytes, so that bytes which agree in every window
are the same (`eq_of_windows`).
-/

namespace VoxelCurve

namespace Slice

variable {s t : Slice} {bytes new : List UInt8}

/-- The bytes reach beyond the slice. -/
structure Within (s : Slice) (bytes : List UInt8) : Prop where
  start_le : s.start ≤ s.stop
  stop_le : s.stop ≤ bytes.length

/-- Two slices have no place in common. -/
def Apart (s t : Slice) : Prop :=
  s.stop ≤ t.start ∨ t.stop ≤ s.start

theorem getElem?_read (s : Slice) (bytes : List UInt8) (n : Nat) :
    (s.read bytes)[n]? = if s.start + n < s.stop then bytes[s.start + n]? else none := by
  rw [read, List.getElem?_drop, List.getElem?_take]

theorem length_read (h : s.Within bytes) : (s.read bytes).length = s.stop - s.start := by
  rw [read, List.length_drop, List.length_take, Nat.min_eq_left h.stop_le]

/-- As many bytes as there were keep the others where they are. -/
theorem length_write (hs : s.start ≤ s.stop) (hnew : new.length = (s.read bytes).length) :
    (s.write bytes new).length = bytes.length := by
  rw [read, List.length_drop, List.length_take] at hnew
  rw [write, List.length_append, List.length_append, List.length_take, List.length_drop, hnew]
  omega

theorem getElem?_write (h : s.Within bytes) (hnew : new.length = s.stop - s.start) (n : Nat) :
    (s.write bytes new)[n]? =
      if n < s.start then bytes[n]? else if n < s.stop then new[n - s.start]? else bytes[n]? := by
  obtain ⟨hstart, hstop⟩ := h
  have hbefore : (bytes.take s.start).length = s.start := by
    rw [List.length_take]
    omega
  rw [write, List.append_assoc]
  split
  · next hn =>
    rw [List.getElem?_append_left (by omega), List.getElem?_take_of_lt hn]
  · next hn =>
    rw [List.getElem?_append_right (by omega), hbefore]
    split
    · next hn' => rw [List.getElem?_append_left (by omega)]
    · next hn' =>
      rw [List.getElem?_append_right (by omega), List.getElem?_drop]
      congr 1
      omega

/-- What was written is read. -/
theorem read_write_self (h : s.Within bytes) (hnew : new.length = s.stop - s.start) :
    s.read (s.write bytes new) = new := by
  refine List.ext_getElem? fun n => ?_
  rw [getElem?_read, getElem?_write h hnew]
  split
  · rw [if_neg (by omega), Nat.add_sub_cancel_left]
  · rw [List.getElem?_eq_none (by omega)]

/-- What is written elsewhere is not seen. -/
theorem read_write_of_apart (h : s.Within bytes) (hnew : new.length = s.stop - s.start)
    (hst : s.Apart t) : t.read (s.write bytes new) = t.read bytes := by
  refine List.ext_getElem? fun n => ?_
  rw [getElem?_read, getElem?_read, getElem?_write h hnew]
  have hstart := h.start_le
  unfold Apart at hst
  split
  · split
    · rfl
    · rw [if_neg (by omega)]
  · rfl

/-- Setting one byte of a slice is writing the slice with this byte. -/
theorem set_eq_write (h : s.Within bytes) {j : Nat} (hj : j < s.stop - s.start) (byte : UInt8) :
    bytes.set (s.start + j) byte = s.write bytes ((s.read bytes).set j byte) := by
  have hlength : ((s.read bytes).set j byte).length = s.stop - s.start := by
    rw [List.length_set, length_read h]
  refine List.ext_getElem? fun n => ?_
  have hplace : j < (s.read bytes).length := by rwa [length_read h]
  obtain ⟨hstart, hstop⟩ := id h
  rw [getElem?_write h hlength, List.getElem?_set, List.getElem?_set]
  by_cases hn : s.start + j = n
  · rw [if_pos hn, if_pos (by omega), if_neg (by omega), if_pos (by omega), if_pos (by omega),
      if_pos hplace]
  · rw [if_neg hn]
    split
    · rfl
    · split
      · rw [if_neg (by omega), getElem?_read, if_pos (by omega), Nat.add_sub_cancel' (by omega)]
      · rfl

end Slice

/-! ## Windows -/

namespace Kind

variable {k : Kind}

theorem window_start_le (k : Kind) (i : Nat) : (k.window i).start ≤ (k.window i).stop :=
  Nat.le_add_right _ _

theorem window_length (k : Kind) (i : Nat) :
    (k.window i).stop - (k.window i).start = k.size :=
  Nat.add_sub_cancel_left _ _

theorem window_stop_le {i n : Nat} (h : i < n) : (k.window i).stop ≤ n * k.size := by
  have hle : (i + 1) * k.size ≤ n * k.size := Nat.mul_le_mul_right k.size h
  rwa [Nat.succ_mul] at hle

/-- The windows of two records have no byte in common. -/
theorem window_apart {i j : Nat} (h : i ≠ j) : (k.window i).Apart (k.window j) := by
  rcases Nat.lt_or_gt_of_ne h with hij | hji
  · exact .inl (window_stop_le hij)
  · exact .inr (window_stop_le hji)

variable {bytes bytes' : List UInt8} {n : Nat}

theorem window_within (h : bytes.length = n * k.size) {i : Nat} (hi : i < n) :
    (k.window i).Within bytes :=
  ⟨k.window_start_le i, h ▸ window_stop_le hi⟩

/-- The bytes of as many records as there are windows are known by their windows. -/
theorem eq_of_windows (h : bytes.length = n * k.size) (h' : bytes'.length = n * k.size)
    (hwindows : ∀ i < n, (k.window i).read bytes = (k.window i).read bytes') :
    bytes = bytes' := by
  refine List.ext_getElem? fun m => ?_
  by_cases hm : m < n * k.size
  · have hi : m / k.size < n := (Nat.div_lt_iff_lt_mul k.size_pos).mpr hm
    have hplace : (k.window (m / k.size)).start + m % k.size = m := Nat.div_add_mod' m k.size
    have hstop : (k.window (m / k.size)).start + m % k.size < (k.window (m / k.size)).stop :=
      Nat.add_lt_add_left (Nat.mod_lt _ k.size_pos) _
    rw [hplace] at hstop
    have hread := congrArg (fun bytes => bytes[m % k.size]?) (hwindows _ hi)
    simp only [Slice.getElem?_read, hplace, if_pos hstop] at hread
    exact hread
  · rw [List.getElem?_eq_none (by omega), List.getElem?_eq_none (by omega)]

end Kind

namespace Buffer

variable {k : Kind}

/-- The window of a record in all bytes of a buffer. -/
theorem read_window_bytes (b : Buffer k) (i : Fin b.extent.count) :
    (k.window i).read b.bytes = (b.record i).toList := by
  rw [← b.window_bytes i, Slice.read, List.drop_take, k.window_length]
  rfl

/-- An edit of a buffer is a write to a window of its bytes. -/
theorem bytes_apply (b : Buffer k) (e : Edit b.extent.count k.size) :
    (b.apply e).bytes = (k.window e.address).write b.bytes e.record.toList := by
  have hlength := b.length_bytes
  have hwithin := Kind.window_within hlength e.address.isLt
  have hnew : e.record.toList.length = (k.window e.address).stop - (k.window e.address).start := by
    rw [k.window_length, Vector.length_toList]
  refine Kind.eq_of_windows (b.apply e).length_bytes ?_ fun i hi => ?_
  · rw [Slice.length_write hwithin.start_le (by rw [Slice.length_read hwithin, hnew]), hlength]
    rfl
  · refine ((b.apply e).read_window_bytes ⟨i, hi⟩).trans ?_
    have hrecord := b.record_apply e ⟨i, hi⟩
    by_cases hei : e.address = ⟨i, hi⟩
    · rw [if_pos hei] at hrecord
      have hself := Slice.read_write_self hwithin hnew
      rw [hei] at hself ⊢
      exact (congrArg Vector.toList hrecord).trans hself.symm
    · rw [if_neg hei] at hrecord
      have hne : e.address.val ≠ i := fun h => hei (Fin.ext h)
      rw [Slice.read_write_of_apart hwithin hnew (Kind.window_apart hne)]
      exact (congrArg Vector.toList hrecord).trans (b.read_window_bytes ⟨i, hi⟩).symm

end Buffer
end VoxelCurve
