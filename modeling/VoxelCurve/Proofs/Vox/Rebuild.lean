import VoxelCurve.Proofs.Success
import VoxelCurve.Proofs.Volume.Buffer
import VoxelCurve.Vox.Model

/-!
Making a buffer of a model.

Voxels are put in their places one after the other, so of several at one cell the last one
stays; a cell without a voxel keeps what was there.  This works exactly for voxels that lie
inside the box and have a slot.
-/

namespace VoxelCurve
namespace Vox

namespace Entry

def cell (v : Entry) : Cell :=
  ⟨v.x.toNat, v.y.toNat, v.z.toNat⟩

end Entry

namespace Model

/-- The color of a voxel that has a slot. -/
def colorIn (m : Model) (v : Entry) : Rgba :=
  have : v.slot.toNat - 1 < 256 := Nat.lt_of_le_of_lt (Nat.sub_le _ _) v.slot.toNat_lt
  m.palette[v.slot.toNat - 1]

/-- A voxel that can be put in a box. -/
structure Placeable (e : Extent) (v : Entry) : Prop where
  inside : e.Contains v.cell
  slot_ne : v.slot ≠ 0

theorem color_slot {m : Model} {v : Entry} (h : v.slot ≠ 0) :
    m.color v.slot.toNat = .ok (m.colorIn v) := by
  have hpos : 0 < v.slot.toNat := by
    apply Nat.pos_of_ne_zero
    intro h0
    exact h (UInt8.toNat_inj.mp h0)
  have hlt := v.slot.toNat_lt
  have hslot : 1 ≤ (v.slot.toNat : Int) ∧ (v.slot.toNat : Int) ≤ 256 := by omega
  have hsub : ((v.slot.toNat : Int) - 1).toNat = v.slot.toNat - 1 := by omega
  rw [color, dif_pos hslot]
  simp only [hsub, colorIn]

theorem edit_of_contains {e : Extent} {v : Entry} (h : e.Contains v.cell) (m : Model) :
    m.edit e v =
      (m.color v.slot.toNat).map fun r => ⟨⟨e.index v.cell, Extent.index_lt_count h⟩, r⟩ :=
  dif_pos h

theorem edit_of_not_contains {e : Extent} {v : Entry} (h : ¬e.Contains v.cell) (m : Model) :
    m.edit e v = .error (.voxelOutside v.x.toNat v.y.toNat v.z.toNat e.shown) :=
  dif_neg h

theorem edit_of_placeable {m : Model} {e : Extent} {v : Entry} (h : Placeable e v) :
    m.edit e v = .ok ⟨⟨e.index v.cell, Extent.index_lt_count h.inside⟩, m.colorIn v⟩ := by
  rw [edit_of_contains h.inside, color_slot h.slot_ne]
  rfl

/-- The record at a cell after voxels were put in their places. -/
theorem place_of_placeable (m : Model) (vs : List Entry) (b : Canvas)
    (h : ∀ v ∈ vs, Placeable b.extent v) :
    ∃ b', m.place vs b = .ok b' ∧ b'.extent = b.extent ∧
      ∀ c, b.extent.Contains c →
        b'.recordAt c =
          match vs.findRev? fun v => v.cell = c with
          | some v => m.colorIn v
          | none => b.recordAt c := by
  induction vs generalizing b with
  | nil => exact ⟨b, rfl, rfl, fun _ _ => rfl⟩
  | cons v vs ih =>
    obtain ⟨hv, hvs⟩ := List.forall_mem_cons.mp h
    let b₁ := b.apply ⟨⟨b.extent.index v.cell, Extent.index_lt_count hv.inside⟩, m.colorIn v⟩
    obtain ⟨b', hplace, hextent, hrecord⟩ := ih b₁ hvs
    refine ⟨b', ?_, hextent, ?_⟩
    · rw [place, edit_of_placeable hv]
      exact hplace
    · intro c hc
      rw [hrecord c hc, List.findRev?]
      cases vs.findRev? fun v => v.cell = c with
      | some v' => rfl
      | none =>
        have hb₁ := Buffer.recordAt_apply hv.inside hc (m.colorIn v)
        by_cases hcell : v.cell = c
        · simp only [decide_eq_true hcell, if_true]
          exact hb₁.trans (if_pos hcell)
        · simp only [decide_eq_false hcell, Bool.false_eq_true, if_false]
          exact hb₁.trans (if_neg hcell)

theorem toBuffer_of_placeable {m : Model} {b₀ : Canvas}
    (hb : Buffer.allocate .rgba m.extent = .ok b₀) (h : ∀ v ∈ m.voxels, Placeable m.extent v) :
    ∃ b, m.toBuffer = .ok b ∧ b.extent = m.extent ∧
      ∀ c, m.extent.Contains c →
        b.recordAt c =
          match m.voxels.findRev? fun v => v.cell = c with
          | some v => m.colorIn v
          | none => Record.blank 4 := by
  obtain rfl := Buffer.eq_of_allocate hb
  obtain ⟨b, hplace, hextent, hrecord⟩ := m.place_of_placeable m.voxels ⟨m.extent, ∅⟩ h
  refine ⟨b, ?_, hextent, ?_⟩
  · rw [toBuffer, hb]
    show (m.place m.voxels ⟨m.extent, ∅⟩).mapError RebuildFault.format = _
    rw [hplace]
    rfl
  · intro c hc
    rw [hrecord c hc, Buffer.recordAt_empty]
    rfl

end Model
end Vox
end VoxelCurve
