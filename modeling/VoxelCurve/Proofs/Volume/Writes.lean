import VoxelCurve.Proofs.Success
import VoxelCurve.Proofs.Volume.Contents

/-!
Writes and what they aim at.

A write is asked for by a cell or by a number, and with a voxel, with all bytes of a record or
with one of them.  What it aims at does not depend on what is stored: it is a cell and a change
of the record there, or a fault.  So there is nothing to know of a run of writes but which
changes were aimed at a cell, in their order: `history` is what they make of a blank record.
-/

namespace VoxelCurve

inductive Write where
  | voxel (x y z : Int) (v : Voxel)
  | entry (i : Int) (v : Voxel)
  /-- other bytes in the place of those that a view of the record shows -/
  | record (x y z : Int) (bytes : List UInt8)
  /-- one other byte in such a view -/
  | byte (x y z : Int) (place value : Value)

/-- What becomes of a record. -/
inductive Change (size : Nat) where
  | whole (r : Record size)
  | single (place : Fin size) (byte : UInt8)

def Change.apply {size : Nat} : Change size → Record size → Record size
  | whole r, _ => r
  | single place byte, r => r.set place byte

/-! ## What is aimed at -/

namespace Extent

/-- The cell with any three coordinates. -/
def cellAt (e : Extent) (x y z : Int) : Except BufferFault Cell :=
  if (0 ≤ x ∧ 0 ≤ y ∧ 0 ≤ z) ∧ e.Contains ⟨x.toNat, y.toNat, z.toNat⟩ then
    .ok ⟨x.toNat, y.toNat, z.toNat⟩
  else .error (.address (.noCell x y z e))

def cellNumbered (e : Extent) (i : Int) : Except BufferFault Cell :=
  if 0 ≤ i ∧ i.toNat < e.count then .ok (e.cell i.toNat)
  else .error (.address (.noEntry i e.count))

end Extent

namespace Write

def cell (e : Extent) : Write → Except BufferFault Cell
  | voxel x y z _ => e.cellAt x y z
  | entry i _ => e.cellNumbered i
  | record x y z _ => e.cellAt x y z
  | byte x y z _ _ => e.cellAt x y z

def change (k : Kind) : Write → Except BufferFault (Change k.size)
  | voxel _ _ _ v => (Buffer.recordOf k.size v).map .whole
  | entry _ v => (Buffer.recordOf k.size v).map .whole
  | record _ _ _ bytes =>
    match k.record? bytes with
    | some r => .ok (.whole r)
    | none => .error (.recordLength bytes.length k.size)
  | byte _ _ _ place value =>
    match place.index? with
    | none => .error .placeNotInteger
    | some p =>
      match place? k.size p with
      | none => .error (.noByte p k.size)
      | some j => (value.byte.mapError .byte).map (.single j)

theorem contains_of_cell {e : Extent} {w : Write} {c : Cell} (h : w.cell e = .ok c) :
    e.Contains c := by
  have hat : ∀ {x y z : Int}, e.cellAt x y z = .ok c → e.Contains c := by
    intro x y z h
    unfold Extent.cellAt at h
    split at h
    · next hin =>
      cases h
      exact hin.2
    · cases h
  cases w with
  | voxel x y z v => exact hat h
  | record x y z bytes => exact hat h
  | byte x y z place value => exact hat h
  | entry i v =>
    change e.cellNumbered i = .ok c at h
    unfold Extent.cellNumbered at h
    split at h
    · next hin =>
      cases h
      exact Extent.contains_cell hin.2
    · cases h

/-- What a write aims at; where there is no such cell is looked at first. -/
def aim (e : Extent) (k : Kind) (w : Write) : Except BufferFault (Cell × Change k.size) := do
  let c ← w.cell e
  let change ← w.change k
  .ok (c, change)

/-- The change that a write makes at a cell, if it is the one that is aimed at. -/
def changeAt? (e : Extent) (k : Kind) (c : Cell) (w : Write) : Option (Change k.size) :=
  match w.aim e k with
  | .ok (d, change) => if d = c then some change else none
  | .error _ => none

end Write

/-- What writes make of a blank record at a cell. -/
def history (e : Extent) (k : Kind) (c : Cell) (ws : List Write) : Record k.size :=
  (ws.filterMap (Write.changeAt? e k c)).foldl (fun r change => change.apply r)
    (Record.blank k.size)

namespace Buffer

variable {k : Kind}

/-! ## A single write -/

/-- Carries out a write, unless it fails. -/
def perform (b : Buffer k) : Write → Except BufferFault (Buffer k)
  | .voxel x y z v => b.set x y z v
  | .entry i v => b.setEntry i v
  | .record x y z bytes => (b.editRecord x y z bytes).map b.apply
  | .byte x y z place value => (b.editByte x y z place value).map b.apply

def writeAddress (b : Buffer k) : Write → Except BufferFault (Fin b.extent.count)
  | .voxel x y z _ => b.addressOf x y z
  | .entry i _ => b.entryOf i
  | .record x y z _ => b.addressOf x y z
  | .byte x y z _ _ => b.addressOf x y z

theorem perform_eq (b : Buffer k) (w : Write) :
    b.perform w = (do
      let i ← b.writeAddress w
      let change ← w.change k
      .ok (b.apply ⟨i, change.apply (b.record i)⟩)) := by
  cases w with
  | voxel x y z v =>
    simp only [perform, set, edit, writeAddress, Write.change]
    rcases b.addressOf x y z with _ | i
    · rfl
    · rcases recordOf k.size v with _ | r <;> rfl
  | entry i v =>
    simp only [perform, setEntry, editEntry, writeAddress, Write.change]
    rcases b.entryOf i with _ | i
    · rfl
    · rcases recordOf k.size v with _ | r <;> rfl
  | record x y z bytes =>
    simp only [perform, editRecord, writeAddress, Write.change]
    rcases b.addressOf x y z with _ | i
    · rfl
    · rcases k.record? bytes with _ | r <;> rfl
  | byte x y z place value =>
    simp only [perform, editByte, writeAddress, Write.change]
    rcases b.addressOf x y z with _ | i
    · rfl
    rcases place.index? with _ | p
    · rfl
    rcases hplace : place? k.size p with _ | j
    · simp only [hplace]
      rfl
    · simp only [hplace]
      rcases value.byte with _ | v <;> rfl

theorem addressOf_eq (b : Buffer k) (x y z : Int) :
    (∃ fault, b.addressOf x y z = .error fault ∧ b.extent.cellAt x y z = .error fault) ∨
      ∃ c, ∃ hc : b.extent.Contains c, b.extent.cellAt x y z = .ok c ∧
        b.addressOf x y z = .ok ⟨b.extent.index c, Extent.index_lt_count hc⟩ := by
  by_cases h : (0 ≤ x ∧ 0 ≤ y ∧ 0 ≤ z) ∧ b.extent.Contains ⟨x.toNat, y.toNat, z.toNat⟩
  · refine .inr ⟨_, h.2, if_pos h, ?_⟩
    rw [addressOf, Extent.address, dif_pos h]
    rfl
  · refine .inl ⟨_, ?_, if_neg h⟩
    rw [addressOf, Extent.address, dif_neg h]
    rfl

theorem entryOf_eq (b : Buffer k) (i : Int) :
    (∃ fault, b.entryOf i = .error fault ∧ b.extent.cellNumbered i = .error fault) ∨
      ∃ c, ∃ hc : b.extent.Contains c, b.extent.cellNumbered i = .ok c ∧
        b.entryOf i = .ok ⟨b.extent.index c, Extent.index_lt_count hc⟩ := by
  by_cases h : 0 ≤ i ∧ i.toNat < b.extent.count
  · refine .inr ⟨_, Extent.contains_cell h.2, if_pos h, ?_⟩
    rw [entryOf, Extent.entry, dif_pos h]
    simp only [Extent.index_cell]
    rfl
  · refine .inl ⟨_, ?_, if_neg h⟩
    rw [entryOf, Extent.entry, dif_neg h]
    rfl

theorem writeAddress_eq (b : Buffer k) (w : Write) :
    (∃ fault, b.writeAddress w = .error fault ∧ w.cell b.extent = .error fault) ∨
      ∃ c, ∃ hc : b.extent.Contains c, w.cell b.extent = .ok c ∧
        b.writeAddress w = .ok ⟨b.extent.index c, Extent.index_lt_count hc⟩ := by
  cases w with
  | voxel x y z v => exact b.addressOf_eq x y z
  | entry i v => exact b.entryOf_eq i
  | record x y z bytes => exact b.addressOf_eq x y z
  | byte x y z place value => exact b.addressOf_eq x y z

/-- A write comes to what it aims at, whatever is stored. -/
theorem perform_cases (b : Buffer k) (w : Write) :
    (∃ fault, w.aim b.extent k = .error fault ∧ b.perform w = .error fault) ∨
      ∃ c change, ∃ hc : b.extent.Contains c, w.aim b.extent k = .ok (c, change) ∧
        b.perform w = .ok (b.apply
          ⟨⟨b.extent.index c, Extent.index_lt_count hc⟩, change.apply (b.recordAt c)⟩) := by
  rw [perform_eq, Write.aim]
  rcases b.writeAddress_eq w with ⟨fault, haddress, hcell⟩ | ⟨c, hc, hcell, haddress⟩
  · rw [haddress, hcell]
    exact .inl ⟨fault, rfl, rfl⟩
  · rw [haddress, hcell]
    rcases w.change k with fault | change
    · exact .inl ⟨fault, rfl, rfl⟩
    · refine .inr ⟨c, change, hc, rfl, ?_⟩
      rw [recordAt_of_contains hc]
      rfl

/-- The buffer after a write.  One that fails gives no other buffer. -/
def attempt (b : Buffer k) (w : Write) : Buffer k :=
  match b.perform w with
  | .ok b' => b'
  | .error _ => b

/-- The buffer after writes, some of which may have failed. -/
def attemptAll (b : Buffer k) (ws : List Write) : Buffer k :=
  ws.foldl attempt b

theorem extent_attempt (b : Buffer k) (w : Write) : (b.attempt w).extent = b.extent := by
  rcases b.perform_cases w with ⟨fault, -, h⟩ | ⟨c, change, hc, -, h⟩
  · rw [attempt, h]
  · rw [attempt, h]
    rfl

theorem extent_attemptAll (b : Buffer k) (ws : List Write) :
    (b.attemptAll ws).extent = b.extent := by
  induction ws generalizing b with
  | nil => rfl
  | cons w ws ih => exact (ih (b.attempt w)).trans (b.extent_attempt w)

end Buffer
end VoxelCurve
