import VoxelCurve.Proofs.Vox.Rebuild

/-!
Which models can be made a buffer again.

The voxels of a model come from a file, so they may lie outside its box, stand at one cell
several times or use no slot.  Each is looked at before it is stored, first where it lies and
then its slot, and the first one that does not pass is what is wrong with the model
(`place_of_refusal`).  The buffer looks at the cell once more.  `rebuild` is the loop with a
fault for this second look; that it never finds anything is `rebuild_eq`.
-/

namespace VoxelCurve
namespace Vox

/-- Why a model could not be made a buffer again, where the buffer itself can refuse a voxel. -/
inductive StoreFault where
  | storage (fault : AllocationFault)
  | format (fault : FormatFault)
  | buffer (fault : BufferFault)

def RebuildFault.toStore : RebuildFault → StoreFault
  | storage fault => .storage fault
  | format fault => .format fault

namespace Model

/-- What is wrong with a voxel. -/
def refusal? (e : Extent) (v : Entry) : Option FormatFault :=
  if ¬e.Contains v.cell then some (.voxelOutside v.x.toNat v.y.toNat v.z.toNat e.shown)
  else if v.slot = 0 then some (.slotOutOfRange "0")
  else none

/-- Stores the color of a voxel at its cell, in a buffer that has its own idea of the box. -/
def store (m : Model) (b : Canvas) (v : Entry) : Except StoreFault Canvas :=
  if m.extent.Contains v.cell then do
    let color ← (m.color v.slot.toNat).mapError .format
    (b.set v.x.toNat v.y.toNat v.z.toNat (.color (.ofRecord color))).mapError .buffer
  else .error (.format (.voxelOutside v.x.toNat v.y.toNat v.z.toNat m.extent.shown))

/-- The buffer of a model, where storing a voxel can fail in all ways. -/
def rebuild (m : Model) : Except StoreFault Canvas := do
  let b ← (Buffer.allocate .rgba m.extent).mapError .storage
  m.voxels.foldlM m.store b

/-! ## A single voxel -/

theorem refusal?_eq_none_iff {e : Extent} {v : Entry} : refusal? e v = none ↔ Placeable e v := by
  unfold refusal?
  by_cases hin : e.Contains v.cell
  · by_cases hslot : v.slot = 0
    · rw [if_neg (not_not_intro hin), if_pos hslot]
      exact ⟨nofun, fun h => absurd hslot h.slot_ne⟩
    · rw [if_neg (not_not_intro hin), if_neg hslot]
      exact ⟨fun _ => ⟨hin, hslot⟩, fun _ => rfl⟩
  · rw [if_pos hin]
    exact ⟨nofun, fun h => absurd h.inside hin⟩

theorem edit_of_refusal {m : Model} {e : Extent} {v : Entry} {fault : FormatFault}
    (h : refusal? e v = some fault) : m.edit e v = .error fault := by
  unfold refusal? at h
  by_cases hin : e.Contains v.cell
  · rw [if_neg (not_not_intro hin), Option.ite_none_right_eq_some] at h
    obtain ⟨hslot, hfault⟩ := h
    have hcolor : m.color v.slot.toNat = .error (.slotOutOfRange "0") := by
      rw [hslot]
      rfl
    rw [edit_of_contains hin, hcolor, ← Option.some.inj hfault]
    rfl
  · rw [if_pos hin] at h
    rw [edit_of_not_contains hin]
    exact congrArg Except.error (Option.some.inj h)

/-- The look at the box of the model spares the buffer its own. -/
theorem store_eq {m : Model} {b : Canvas} (hb : b.extent = m.extent) (v : Entry) :
    m.store b v = ((m.edit b.extent v).map b.apply).mapError .format := by
  unfold store
  rw [← hb]
  by_cases hin : b.extent.Contains v.cell
  · rw [if_pos hin, edit_of_contains hin]
    cases m.color v.slot.toNat with
    | error fault => rfl
    | ok color => exact congrArg (Except.mapError StoreFault.buffer) (Buffer.set_ofRecord hin color)
  · rw [if_neg hin, edit_of_not_contains hin]
    rfl

/-! ## All voxels -/

theorem foldlM_store {m : Model} {b : Canvas} (hb : b.extent = m.extent) (vs : List Entry) :
    vs.foldlM m.store b = (m.place vs b).mapError .format := by
  -- an edit leaves the box as it is, so the buffer goes on agreeing with the model about it
  induction vs generalizing b with
  | nil => rfl
  | cons v vs ih =>
    rw [List.foldlM_cons, store_eq hb, place]
    cases m.edit b.extent v with
    | error fault => rfl
    | ok edit => exact ih (b := b.apply edit) hb

theorem rebuild_eq (m : Model) : m.rebuild = m.toBuffer.mapError RebuildFault.toStore := by
  rw [rebuild, toBuffer]
  cases hb : Buffer.allocate .rgba m.extent with
  | error fault => rfl
  | ok b =>
    have hextent : b.extent = m.extent := by rw [Buffer.eq_of_allocate hb]
    refine (foldlM_store hextent m.voxels).trans ?_
    show _ = ((m.place m.voxels b).mapError RebuildFault.format).mapError _
    cases m.place m.voxels b <;> rfl

/-- The first voxel that is refused ends the run. -/
theorem place_of_refusal {m : Model} {vs : List Entry} {b : Canvas} {fault : FormatFault}
    (h : vs.findSome? (refusal? b.extent) = some fault) : m.place vs b = .error fault := by
  induction vs generalizing b with
  | nil => cases h
  | cons v vs ih =>
    rw [List.findSome?_cons] at h
    cases hv : refusal? b.extent v with
    | some fault' =>
      rw [hv] at h
      rw [place, edit_of_refusal hv]
      exact congrArg Except.error (Option.some.inj h)
    | none =>
      rw [hv] at h
      rw [place, edit_of_placeable (refusal?_eq_none_iff.mp hv)]
      exact ih h

theorem toBuffer_of_refusal {m : Model} {b₀ : Canvas}
    (hb : Buffer.allocate .rgba m.extent = .ok b₀) {fault : FormatFault}
    (h : m.voxels.findSome? (refusal? m.extent) = some fault) :
    m.toBuffer = .error (.format fault) := by
  obtain rfl := Buffer.eq_of_allocate hb
  have hplace : m.place m.voxels ⟨m.extent, ∅⟩ = .error fault := place_of_refusal h
  rw [toBuffer, hb]
  exact congrArg (Except.mapError RebuildFault.format) hplace

/-- On storage that can be had, either no voxel is refused and there is a buffer, or one is and
the first of them says what is wrong. -/
theorem toBuffer_cases {m : Model} {b₀ : Canvas} (hb : Buffer.allocate .rgba m.extent = .ok b₀) :
    ((∀ v ∈ m.voxels, Placeable m.extent v) ∧ ∃ b, m.toBuffer = .ok b) ∨
      (¬∀ v ∈ m.voxels, Placeable m.extent v) ∧ ∃ fault,
        m.voxels.findSome? (refusal? m.extent) = some fault ∧
          m.toBuffer = .error (.format fault) := by
  cases hrefusal : m.voxels.findSome? (refusal? m.extent) with
  | none =>
    have hall : ∀ v ∈ m.voxels, Placeable m.extent v := by
      intro v hv
      exact refusal?_eq_none_iff.mp (List.findSome?_eq_none_iff.mp hrefusal v hv)
    obtain ⟨b, hbuffer, -⟩ := toBuffer_of_placeable hb hall
    exact .inl ⟨hall, b, hbuffer⟩
  | some fault =>
    obtain ⟨v, hv, hfault⟩ := List.exists_of_findSome?_eq_some hrefusal
    refine .inr ⟨?_, fault, rfl, toBuffer_of_refusal hb hrefusal⟩
    intro hall
    rw [refusal?_eq_none_iff.mpr (hall v hv)] at hfault
    cases hfault

theorem placeable_iff {m : Model} {v : Entry} :
    Placeable m.extent v ↔ v.x.toNat < m.width.toNat ∧ v.y.toNat < m.depth.toNat ∧
      v.z.toNat < m.height.toNat ∧ 1 ≤ v.slot.toNat := by
  have hslot : v.slot ≠ 0 ↔ 1 ≤ v.slot.toNat := by
    rw [ne_eq, ← UInt8.toNat_inj]
    exact Nat.pos_iff_ne_zero.symm
  rw [← hslot]
  constructor
  · intro h
    obtain ⟨⟨hx, hy, hz⟩, hne⟩ := h
    exact ⟨hx, hy, hz, hne⟩
  · intro h
    obtain ⟨hx, hy, hz, hne⟩ := h
    exact ⟨⟨hx, hy, hz⟩, hne⟩

/-- What a model says of a cell: the color of the last voxel there, and zero bytes where there is
none. -/
def Shows (m : Model) (c : Cell) (r : Rgba) : Prop :=
  match m.voxels.findRev? fun v => v.cell = c with
  | some v => m.color v.slot.toNat = .ok r
  | none => r = Rgba.ofBytes 0 0 0 0

theorem shows_of_toBuffer {m : Model} {b₀ b : Canvas}
    (hb : Buffer.allocate .rgba m.extent = .ok b₀) (h : m.toBuffer = .ok b) :
    b.extent = m.extent ∧ ∀ c, m.extent.Contains c →
      ∃ r, b.get c.x c.y c.z = .ok r ∧ m.Shows c r := by
  rcases toBuffer_cases hb with ⟨hall, -⟩ | ⟨-, fault, -, herror⟩
  · obtain ⟨b', hbuffer, hextent, hrecord⟩ := toBuffer_of_placeable hb hall
    obtain rfl := Except.ok.inj (h.symm.trans hbuffer)
    refine ⟨hextent, fun c hc => ⟨b.recordAt c, ?_, ?_⟩⟩
    · exact Buffer.get_of_contains (by rwa [hextent])
    · unfold Shows
      rw [hrecord c hc]
      cases hlast : m.voxels.findRev? fun v => v.cell = c with
      | none => rfl
      | some v => exact color_slot (hall v (of_findRev?_eq_some hlast).1).slot_ne
  · rw [h] at herror
    cases herror

/-- A model whose sides can be had is made a buffer if all of its voxels lie in the box and use a
slot.  Otherwise the first one that does not is what is wrong, and never a cell that the buffer
lacks.  The buffer shows at each cell what the model says of it. -/
theorem rebuild_exact {m : Model} {b₀ : Canvas} (hb : Buffer.allocate .rgba m.extent = .ok b₀) :
    m.rebuild = m.toBuffer.mapError RebuildFault.toStore ∧
    ((∃ b, m.toBuffer = .ok b) ↔
      ∀ v ∈ m.voxels, v.x.toNat < m.width.toNat ∧ v.y.toNat < m.depth.toNat ∧
        v.z.toNat < m.height.toNat ∧ 1 ≤ v.slot.toNat) ∧
    (∀ fault, m.toBuffer = .error fault → ∃ refusal,
      m.voxels.findSome? (refusal? m.extent) = some refusal ∧ fault = .format refusal) ∧
    ∀ b, m.toBuffer = .ok b → b.extent = m.extent ∧ ∀ c, m.extent.Contains c →
      ∃ r, b.get c.x c.y c.z = .ok r ∧ m.Shows c r := by
  refine ⟨m.rebuild_eq, ?_, ?_, fun b h => shows_of_toBuffer hb h⟩
  · simp only [← placeable_iff]
    rcases toBuffer_cases hb with ⟨hall, hbuffer⟩ | ⟨hall, fault, -, herror⟩
    · exact iff_of_true hbuffer hall
    · rw [herror]
      exact iff_of_false nofun hall
  · intro fault h
    rcases toBuffer_cases hb with ⟨-, b, hbuffer⟩ | ⟨-, refusal, hrefusal, herror⟩
    · rw [hbuffer] at h
      cases h
    · rw [herror] at h
      exact ⟨refusal, hrefusal, (Except.error.inj h).symm⟩

/-- Two voxels at one cell, and none at the other. -/
def overpainted : Model :=
  ⟨2, 1, 1, [⟨1, 0, 0, 2⟩, ⟨1, 0, 0, 1⟩], .ofColors [#v[10, 20, 30, 255], #v[40, 50, 60, 255]],
    150⟩

theorem rebuild_exact_overpainted :
    Buffer.allocate .rgba overpainted.extent = .ok ⟨overpainted.extent, ∅⟩ ∧
      ∃ b, overpainted.toBuffer = .ok b ∧ b.get 1 0 0 = .ok #v[10, 20, 30, 255] ∧
        b.get 0 0 0 = .ok #v[0, 0, 0, 0] := by
  have hb : Buffer.allocate .rgba overpainted.extent = .ok ⟨overpainted.extent, ∅⟩ := rfl
  obtain ⟨-, hsome, -, hshows⟩ := rebuild_exact hb
  obtain ⟨b, hbuffer⟩ := hsome.mpr (by decide)
  obtain ⟨-, hget⟩ := hshows b hbuffer
  obtain ⟨r, hr, hpainted⟩ := hget ⟨1, 0, 0⟩ (by decide)
  obtain ⟨q, hq, hblank⟩ := hget ⟨0, 0, 0⟩ (by decide)
  have hcolor : overpainted.color 1 = .ok #v[10, 20, 30, 255] := by
    simp [overpainted, color, Palette.ofColors]
  have hlast : overpainted.color 1 = .ok r := hpainted
  refine ⟨hb, b, hbuffer, ?_, ?_⟩
  · exact hr.trans (congrArg Except.ok (Except.ok.inj (hlast.symm.trans hcolor)))
  · exact hq.trans (congrArg Except.ok hblank)

end Model
end Vox
end VoxelCurve
