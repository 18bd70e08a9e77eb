import VoxelCurve.Proofs.Success
import VoxelCurve.Proofs.Volume.Extent
import VoxelCurve.Volume.Contents

/-!
A buffer by its cells.

`recordAt` is the view of a buffer that does not mention addresses: reading at any three
coordinates is reading at their cell, storage that was just allocated is blank everywhere,
and an edit at a cell changes this cell and no other.
-/

namespace VoxelCurve

theorem Value.byte_toNat (b : UInt8) : (Value.int b.toNat).byte = .ok b := by
  have hrange : 0 ≤ (b.toNat : Int) ∧ (b.toNat : Int) ≤ 255 := by
    have hlt := b.toNat_lt
    omega
  have hindex : (Value.int b.toNat).index? = some (b.toNat : Int) := rfl
  rw [byte, hindex]
  simp only [if_pos hrange, Int.toNat_natCast, UInt8.ofNat_toNat]

theorem Color.record_ofRecord (r : Rgba) : (Color.ofRecord r).record = .ok r := by
  have hparts : Rgba.ofBytes r[0] r[1] r[2] r[3] = r := by
    refine Vector.ext ?_
    intro i hi
    rcases i with _ | _ | _ | _ | i
    · rfl
    · rfl
    · rfl
    · rfl
    · omega
  simp only [record, ofRecord, ofInts, Value.byte_toNat]
  exact congrArg Except.ok hparts

namespace Buffer

variable {k : Kind}

theorem recordAt_of_contains {b : Buffer k} {c : Cell} (h : b.extent.Contains c) :
    b.recordAt c = b.record ⟨b.extent.index c, Extent.index_lt_count h⟩ :=
  dif_pos h

theorem recordAt_cell (b : Buffer k) (i : Fin b.extent.count) :
    b.recordAt (b.extent.cell i) = b.record i := by
  rw [recordAt_of_contains (Extent.contains_cell i.isLt)]
  congr 1
  exact Fin.ext (b.extent.index_cell i)

theorem addressOf_of_contains {b : Buffer k} {c : Cell} (hc : b.extent.Contains c) :
    b.addressOf c.x c.y c.z = .ok ⟨b.extent.index c, Extent.index_lt_count hc⟩ := by
  have hin : (0 ≤ (c.x : Int) ∧ 0 ≤ (c.y : Int) ∧ 0 ≤ (c.z : Int)) ∧ b.extent.Contains c :=
    ⟨⟨Int.natCast_nonneg _, Int.natCast_nonneg _, Int.natCast_nonneg _⟩, hc⟩
  have haddress : b.extent.address c.x c.y c.z =
      .ok ⟨b.extent.index c, Extent.index_lt_count hc⟩ := dif_pos hin
  rw [addressOf, haddress]
  rfl

theorem entryOf_val (b : Buffer k) (i : Fin b.extent.count) : b.entryOf (i.val : Int) = .ok i := by
  rw [entryOf, Extent.entry, dif_pos ⟨Int.natCast_nonneg _, i.isLt⟩]
  rfl

theorem get_of_contains {b : Buffer k} {c : Cell} (hc : b.extent.Contains c) :
    b.get c.x c.y c.z = .ok (b.recordAt c) := by
  rw [get, addressOf_of_contains hc, recordAt_of_contains hc]
  rfl

/-- Reading goes by the cell, and whether there is one depends on the box alone. -/
theorem get_eq (b : Buffer k) (x y z : Int) :
    b.get x y z =
      if (0 ≤ x ∧ 0 ≤ y ∧ 0 ≤ z) ∧ b.extent.Contains ⟨x.toNat, y.toNat, z.toNat⟩ then
        .ok (b.recordAt ⟨x.toNat, y.toNat, z.toNat⟩)
      else .error (.address (.noCell x y z b.extent)) := by
  by_cases h : (0 ≤ x ∧ 0 ≤ y ∧ 0 ≤ z) ∧ b.extent.Contains ⟨x.toNat, y.toNat, z.toNat⟩
  · rw [if_pos h, get, addressOf, Extent.address, dif_pos h, recordAt_of_contains h.2]
    rfl
  · rw [if_neg h, get, addressOf, Extent.address, dif_neg h]
    rfl

theorem recordAt_empty (e : Extent) (c : Cell) :
    (⟨e, ∅⟩ : Buffer k).recordAt c = Record.blank k.size := by
  by_cases h : e.Contains c
  · rw [recordAt_of_contains h]
    exact Written.record_empty _
  · exact dif_neg h

theorem recordAt_apply {b : Buffer k} {c d : Cell} (hc : b.extent.Contains c)
    (hd : b.extent.Contains d) (r : Record k.size) :
    (b.apply ⟨⟨b.extent.index c, Extent.index_lt_count hc⟩, r⟩).recordAt d =
      if c = d then r else b.recordAt d := by
  have happly := b.record_apply ⟨⟨b.extent.index c, Extent.index_lt_count hc⟩, r⟩
    ⟨b.extent.index d, Extent.index_lt_count hd⟩
  rw [recordAt_of_contains hd, recordAt_of_contains (by exact hd)]
  refine happly.trans ?_
  simp only [Fin.mk.injEq, Extent.index_inj hc hd]

/-- A color that was once stored can be stored again, at every cell. -/
theorem set_ofRecord {b : Canvas} {c : Cell} (hc : b.extent.Contains c) (r : Rgba) :
    b.set c.x c.y c.z (.color (.ofRecord r)) =
      .ok (b.apply ⟨⟨b.extent.index c, Extent.index_lt_count hc⟩, r⟩) := by
  have hbytes : (Voxel.color (.ofRecord r)).bytes = .ok r.toList := by
    rw [Voxel.bytes, Color.record_ofRecord]
    rfl
  have hrecord : recordOf Kind.rgba.size (.color (.ofRecord r)) = .ok r := by
    rw [recordOf, hbytes]
    exact dif_pos r.length_toList
  rw [set, edit, addressOf_of_contains hc, hrecord]
  rfl

theorem allocate_eq {e : Extent} (h : e.isShapeable k.size = true) :
    allocate k e = .ok ⟨e, ∅⟩ := by
  obtain ⟨n, hn⟩ := Extent.exists_byteLength? h
  simp only [allocate, hn]

theorem eq_of_allocate {e : Extent} {b : Buffer k} (h : allocate k e = .ok b) :
    b = ⟨e, ∅⟩ := by
  unfold allocate at h
  split at h
  · cases h
  · cases h
    rfl

/-- What is declared for a kind is allocated for its box. -/
theorem allocate_of_declare {width depth height : Value} {b : Buffer k}
    (h : declare width depth height (.ok k) = .ok ⟨k, b⟩) : allocate k b.extent = .ok b := by
  obtain ⟨e, -, hb⟩ := bind_eq_ok_iff.mp h
  obtain ⟨b', hallocate, hb'⟩ := map_eq_ok_iff.mp hb
  cases hb'
  obtain rfl := eq_of_allocate hallocate
  exact hallocate

/-- Storage that was had can be laid out as nested rows. -/
theorem isShapeable_of_allocate {e : Extent} {b : Buffer k} (h : allocate k e = .ok b)
    (hsides : 0 < e.width ∧ 0 < e.depth ∧ 0 < e.height) : e.isShapeable k.size = true := by
  unfold allocate at h
  split at h
  · cases h
  · next hlength => exact Extent.isShapeable_of_byteLength? hsides hlength

end Buffer
end VoxelCurve
