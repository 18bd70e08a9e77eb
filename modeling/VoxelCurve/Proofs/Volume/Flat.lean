import VoxelCurve.Proofs.Volume.Window
import VoxelCurve.Proofs.Volume.Writes

/-!
Runs of writes on a run of bytes.

Two things are said of a write.  On any bytes whatever, one that fails has written nothing: all
that it looks at comes before the only step that writes, and `Access.Reads.bind` passes this on
from the parts of a write to the whole.  On the bytes of as many records as there are cells, one
that succeeds changes the window of the cell that it aims at (`run_perform`), and the windows of
all others lie apart from it.  A run does this again and again, so that `attemptAll_faithful`
says of every record which writes it came from, and that a `Buffer` on which the same writes are
carried out has the same bytes.
-/

namespace VoxelCurve

namespace Access

variable {α β : Type}

/-- Work that leaves the bytes alone, whatever comes of it. -/
def Reads (x : Access α) : Prop :=
  ∀ bytes, (∃ a, x.run bytes = .ok a bytes) ∨ ∃ fault, x.run bytes = .error fault bytes

/-- Work that has written nothing if it fails. -/
def AllOrNothing (x : Access α) : Prop :=
  ∀ bytes fault bytes', x.run bytes = .error fault bytes' → bytes' = bytes

theorem Reads.allOrNothing {x : Access α} (h : x.Reads) : x.AllOrNothing := by
  intro bytes fault bytes' hfault
  rcases h bytes with ⟨a, ha⟩ | ⟨fault', hfault'⟩
  · cases ha.symm.trans hfault
  · cases hfault'.symm.trans hfault
    rfl

theorem Reads.bind {x : Access α} {f : α → Access β} (hx : x.Reads)
    (hf : ∀ a, (f a).AllOrNothing) : AllOrNothing (x >>= f) := by
  intro bytes fault bytes' h
  rw [EStateM.run_bind] at h
  rcases hx bytes with ⟨a, ha⟩ | ⟨fault', hfault⟩
  · rw [ha] at h
    exact hf a bytes fault bytes' h
  · rw [hfault] at h
    cases h
    rfl

theorem reads_pure (a : α) : Reads (pure a : Access α) :=
  fun _ => .inl ⟨a, rfl⟩

theorem reads_throw (fault : BufferFault) : Reads (throw fault : Access α) :=
  fun _ => .inr ⟨fault, rfl⟩

theorem reads_ofExcept (r : Except BufferFault α) : Reads (ofExcept r : Access α) := by
  cases r with
  | error fault => exact reads_throw fault
  | ok a => exact reads_pure a

theorem reads_load (s : Slice) : s.load.Reads :=
  fun bytes => .inl ⟨s.read bytes, rfl⟩

theorem allOrNothing_modify (f : List UInt8 → List UInt8) :
    AllOrNothing (modify f : Access Unit) := by
  intro bytes fault bytes' h
  cases h

/-- The bytes after work, whether it failed or not. -/
def left (x : Access α) (bytes : List UInt8) : List UInt8 :=
  match x.run bytes with
  | .ok _ bytes => bytes
  | .error _ bytes => bytes

end Access

open Access

/-! ## Writes that fail -/

namespace Slice

theorem allOrNothing_assign (s : Slice) (new : List UInt8) : (s.assign new).AllOrNothing := by
  refine (reads_load s).bind fun old => ?_
  split
  · exact allOrNothing_modify _
  · split
    · exact allOrNothing_modify _
    · exact (reads_throw _).allOrNothing

theorem allOrNothing_fill (s : Slice) (new : List UInt8) : (s.fill new).AllOrNothing := by
  refine (reads_load s).bind fun old => ?_
  split
  · exact allOrNothing_modify _
  · exact (reads_throw _).allOrNothing

theorem allOrNothing_poke (s : Slice) (place value : Value) :
    (s.poke place value).AllOrNothing := by
  refine (reads_load s).bind fun old => ?_
  split
  · exact (reads_throw _).allOrNothing
  · split
    · exact (reads_throw _).allOrNothing
    · exact (reads_ofExcept _).bind fun byte => allOrNothing_modify _

end Slice

namespace Flat

/-- The number of a cell, or the fault, depends on the box alone. -/
theorem index_eq (e : Extent) (x y z : Int) :
    index e x y z = ofExcept ((e.cellAt x y z).map e.index) := by
  by_cases h : (0 ≤ x ∧ 0 ≤ y ∧ 0 ≤ z) ∧ e.Contains ⟨x.toNat, y.toNat, z.toNat⟩
  · rw [Extent.cellAt, if_pos h]
    exact if_pos h
  · rw [Extent.cellAt, if_neg h]
    exact if_neg h

theorem checkIndex_eq (e : Extent) (i : Int) :
    checkIndex e i = ofExcept ((e.cellNumbered i).map e.index) := by
  by_cases h : 0 ≤ i ∧ i.toNat < e.count
  · rw [checkIndex, Extent.cellNumbered, if_pos h, if_pos h, Except.map, Extent.index_cell]
    rfl
  · rw [checkIndex, Extent.cellNumbered, if_neg h, if_neg h]
    rfl

theorem reads_index (e : Extent) (x y z : Int) : (index e x y z).Reads := by
  rw [index_eq]
  exact reads_ofExcept _

theorem reads_checkIndex (e : Extent) (i : Int) : (checkIndex e i).Reads := by
  rw [checkIndex_eq]
  exact reads_ofExcept _

theorem allOrNothing_encode (k : Kind) (i : Nat) (v : Voxel) : (encode k i v).AllOrNothing := by
  refine (reads_ofExcept _).bind fun bytes => ?_
  split
  · exact (k.window i).allOrNothing_assign bytes
  · exact (reads_throw _).allOrNothing

variable (e : Extent) (k : Kind)

/-- Carries out a write. -/
def perform : Write → Access Unit
  | .voxel x y z v => set k e x y z v
  | .entry i v => setEntry k e i v
  | .record x y z bytes => do (← view k e x y z).fill bytes
  | .byte x y z place value => do (← view k e x y z).poke place value

/-- The bytes after writes, some of which may have failed. -/
def attemptAll (ws : List Write) (bytes : List UInt8) : List UInt8 :=
  ws.foldl (fun bytes w => (perform e k w).left bytes) bytes

theorem reads_view (x y z : Int) : (view k e x y z).Reads := by
  intro bytes
  rcases reads_index e x y z bytes with ⟨i, hi⟩ | ⟨fault, hfault⟩
  · exact .inl ⟨k.window i, by rw [view, EStateM.run_bind, hi]; rfl⟩
  · exact .inr ⟨fault, by rw [view, EStateM.run_bind, hfault]⟩

/-- A write that fails has written nothing. -/
theorem allOrNothing_perform (w : Write) : (perform e k w).AllOrNothing := by
  cases w with
  | voxel x y z v => exact (reads_index e x y z).bind fun i => allOrNothing_encode k i v
  | entry i v => exact (reads_checkIndex e i).bind fun i => allOrNothing_encode k i v
  | record x y z bytes => exact (reads_view e k x y z).bind fun s => s.allOrNothing_fill bytes
  | byte x y z place value =>
    exact (reads_view e k x y z).bind fun s => s.allOrNothing_poke place value

/-! ## Writes that succeed -/

variable {e k}

/-- What is left of a write once the number of its cell is known. -/
def put (k : Kind) (i : Nat) : Write → Access Unit
  | .voxel _ _ _ v => encode k i v
  | .entry _ v => encode k i v
  | .record _ _ _ bytes => (k.window i).fill bytes
  | .byte _ _ _ place value => (k.window i).poke place value

theorem ofExcept_map_bind {α β γ : Type} (r : Except BufferFault α) (f : α → β)
    (g : β → Access γ) :
    (ofExcept (r.map f) >>= g : Access γ) = ofExcept r >>= fun a => g (f a) := by
  cases r with
  | error fault => rfl
  | ok a => rfl

theorem perform_eq (e : Extent) (k : Kind) (w : Write) :
    perform e k w = ofExcept (w.cell e) >>= fun c => put k (e.index c) w := by
  cases w with
  | voxel x y z v =>
    rw [perform, set, index_eq, ofExcept_map_bind]
    rfl
  | entry i v =>
    rw [perform, setEntry, checkIndex_eq, ofExcept_map_bind]
    rfl
  | record x y z bytes =>
    rw [perform, view, index_eq, ofExcept_map_bind, bind_assoc]
    rfl
  | byte x y z place value =>
    rw [perform, view, index_eq, ofExcept_map_bind, bind_assoc]
    rfl

/-- What comes of another byte at a place of a slice of `n` bytes. -/
theorem run_poke {s : Slice} {bytes : List UInt8} {n : Nat} (hn : (s.read bytes).length = n)
    (place value : Value) :
    (s.poke place value).run bytes =
      match place.index? with
      | none => .error .placeNotInteger bytes
      | some p =>
        match place? n p with
        | none => .error (.noByte p n) bytes
        | some j =>
          match value.byte.mapError .byte with
          | .error fault => .error fault bytes
          | .ok byte => .ok () (bytes.set (s.start + j) byte) := by
  subst hn
  have hload : s.load.run bytes = .ok (s.read bytes) bytes := rfl
  rw [Slice.poke, EStateM.run_bind, hload]
  cases place.index? with
  | none => rfl
  | some p =>
    simp only
    cases place? (s.read bytes).length p with
    | none => rfl
    | some j =>
      simp only
      cases value.byte.mapError BufferFault.byte with
      | error fault => rfl
      | ok byte => rfl

section Window

variable {bytes : List UInt8} {i : Nat} {r : Record k.size}
  (hr : (k.window i).read bytes = r.toList)

include hr

theorem run_load : (k.window i).load.run bytes = .ok r.toList bytes := by
  rw [← hr]
  rfl

theorem run_assign {new : List UInt8} (hnew : new.length = k.size) :
    ((k.window i).assign new).run bytes = .ok () ((k.window i).write bytes new) := by
  rw [Slice.assign, EStateM.run_bind, run_load hr]
  simp only [Vector.length_toList, hnew, if_true, EStateM.run_modify]

theorem run_fill (new : List UInt8) :
    ((k.window i).fill new).run bytes =
      if new.length = k.size then .ok () ((k.window i).write bytes new)
      else .error (.recordLength new.length k.size) bytes := by
  rw [Slice.fill, EStateM.run_bind, run_load hr]
  simp only [Vector.length_toList]
  split <;> rfl

theorem run_encode (v : Voxel) :
    (encode k i v).run bytes =
      match Buffer.recordOf k.size v with
      | .ok r' => .ok () ((k.window i).write bytes r'.toList)
      | .error fault => .error fault bytes := by
  rcases hv : v.bytes.mapError BufferFault.voxel with fault | new
  · have hencode : encode k i v = throw fault := by
      rw [encode, hv]
      rfl
    have hrecord : Buffer.recordOf k.size v = .error fault := by
      rw [Buffer.recordOf, hv]
      rfl
    rw [hencode, hrecord]
    rfl
  by_cases hnew : new.length = k.size
  · have hencode : encode k i v = (k.window i).assign new := by
      rw [encode, hv]
      exact if_pos hnew
    have hrecord : Buffer.recordOf k.size v = .ok ⟨new.toArray, by simpa using hnew⟩ := by
      rw [Buffer.recordOf, hv]
      exact dif_pos hnew
    rw [hencode, hrecord]
    exact run_assign hr hnew
  · have hencode : encode k i v = throw (.voxelLength new.length k.size) := by
      rw [encode, hv]
      exact if_neg hnew
    have hrecord : Buffer.recordOf k.size v = .error (.voxelLength new.length k.size) := by
      rw [Buffer.recordOf, hv]
      exact dif_neg hnew
    rw [hencode, hrecord]
    rfl

theorem run_decode : (decode k i).run bytes = .ok r bytes := by
  have hread : k.read r.toList = .ok r := by
    rw [Kind.read, Kind.record?, dif_pos r.length_toList]
    rfl
  rw [decode, EStateM.run_bind, run_load hr]
  simp only [hread]
  rfl

/-- The rest of a write changes the record in the window as the write says, or nothing. -/
theorem run_put (h : (k.window i).Within bytes) (w : Write) :
    (put k i w).run bytes =
      match w.change k with
      | .ok change => .ok () ((k.window i).write bytes (change.apply r).toList)
      | .error fault => .error fault bytes := by
  cases w with
  | voxel x y z v =>
    rw [put, run_encode hr, Write.change]
    cases Buffer.recordOf k.size v with
    | error fault => rfl
    | ok r' => rfl
  | entry i v =>
    rw [put, run_encode hr, Write.change]
    cases Buffer.recordOf k.size v with
    | error fault => rfl
    | ok r' => rfl
  | record x y z new =>
    rw [put, run_fill hr, Write.change, Kind.record?]
    by_cases hnew : new.length = k.size
    · rw [if_pos hnew, dif_pos hnew]
      rfl
    · rw [if_neg hnew, dif_neg hnew]
  | byte x y z place value =>
    have hlength : ((k.window i).read bytes).length = k.size := by
      rw [Slice.length_read h, k.window_length]
    rw [put, run_poke hlength, Write.change]
    cases place.index? with
    | none => rfl
    | some p =>
      simp only
      cases place? k.size p with
      | none => rfl
      | some j =>
        simp only
        cases value.byte.mapError BufferFault.byte with
        | error fault => rfl
        | ok byte =>
          have hj : j.val < (k.window i).stop - (k.window i).start := by
            rw [k.window_length]
            exact j.isLt
          have hset : (r.toList.set j.val byte) = ((Change.single j byte).apply r).toList :=
            (Vector.toList_set j.isLt).symm
          show EStateM.Result.ok () (bytes.set _ byte) = .ok () _
          rw [Slice.set_eq_write h hj, hr, hset]

end Window

/-! ## One write -/

theorem exists_record {bytes : List UInt8} {i : Nat} (h : (k.window i).Within bytes) :
    ∃ r : Record k.size, (k.window i).read bytes = r.toList := by
  have hlength : ((k.window i).read bytes).length = k.size := by
    rw [Slice.length_read h, k.window_length]
  exact ⟨⟨((k.window i).read bytes).toArray, by simpa using hlength⟩, rfl⟩

section Step

variable {bytes : List UInt8} (hlength : bytes.length = e.count * k.size)

include hlength

theorem within_cell {c : Cell} (hc : e.Contains c) : (k.window (e.index c)).Within bytes :=
  Kind.window_within hlength (Extent.index_lt_count hc)

/-- A write fails if it aims at nothing, and otherwise writes the window of its cell. -/
theorem run_perform (w : Write) :
    (∃ fault, w.aim e k = .error fault ∧ (perform e k w).run bytes = .error fault bytes) ∨
      ∃ c change, ∃ r : Record k.size, e.Contains c ∧ w.aim e k = .ok (c, change) ∧
        (k.window (e.index c)).read bytes = r.toList ∧
        (perform e k w).run bytes =
          .ok () ((k.window (e.index c)).write bytes (change.apply r).toList) := by
  rw [perform_eq, Write.aim, EStateM.run_bind]
  cases hcell : w.cell e with
  | error fault => exact .inl ⟨fault, rfl, rfl⟩
  | ok c =>
    have hc := Write.contains_of_cell hcell
    have hwithin := within_cell hlength hc
    obtain ⟨r, hr⟩ := exists_record hwithin
    have hput := run_put hr hwithin w
    cases hchange : w.change k with
    | error fault =>
      rw [hchange] at hput
      exact .inl ⟨fault, rfl, hput⟩
    | ok change =>
      rw [hchange] at hput
      exact .inr ⟨c, change, r, hc, rfl, hr, hput⟩

theorem length_left_perform (w : Write) :
    ((perform e k w).left bytes).length = e.count * k.size := by
  rcases run_perform hlength w with ⟨fault, -, hrun⟩ | ⟨c, change, r, hc, -, hr, hrun⟩
  · rw [left, hrun]
    exact hlength
  · have hwithin := within_cell hlength hc
    have hnew : (change.apply r).toList.length = ((k.window (e.index c)).read bytes).length := by
      rw [hr, Vector.length_toList, Vector.length_toList]
    rw [left, hrun]
    exact (Slice.length_write hwithin.start_le hnew).trans hlength

/-- A write changes the record that it aims at and no other. -/
theorem read_left_perform {c : Cell} (hc : e.Contains c) {r : Record k.size}
    (hr : (k.window (e.index c)).read bytes = r.toList) (w : Write) :
    (k.window (e.index c)).read ((perform e k w).left bytes) =
      (((w.changeAt? e k c).toList).foldl (fun r change => change.apply r) r).toList := by
  rcases run_perform hlength w with ⟨fault, haim, hrun⟩ | ⟨d, change, r', hd, haim, hr', hrun⟩
  · rw [left, hrun, Write.changeAt?, haim]
    exact hr
  · have hwithin := within_cell hlength hd
    have hnew : (change.apply r').toList.length =
        (k.window (e.index d)).stop - (k.window (e.index d)).start := by
      rw [Vector.length_toList, k.window_length]
    rw [left, hrun, Write.changeAt?, haim]
    by_cases hdc : d = c
    · subst hdc
      obtain rfl : r' = r := Vector.toList_inj.mp (hr'.symm.trans hr)
      simp only [if_true, Option.toList_some, List.foldl_cons, List.foldl_nil]
      exact Slice.read_write_self hwithin hnew
    · have hne : e.index d ≠ e.index c := fun h => hdc ((Extent.index_inj hd hc).mp h)
      simp only [if_neg hdc, Option.toList_none, List.foldl_nil]
      exact (Slice.read_write_of_apart hwithin hnew (Kind.window_apart hne)).trans hr

/-! ## A run -/

theorem length_attemptAll (ws : List Write) :
    (attemptAll e k ws bytes).length = e.count * k.size := by
  induction ws generalizing bytes with
  | nil => exact hlength
  | cons w ws ih => exact ih (length_left_perform hlength w)

/-- After a run a record is what the writes that aimed at it make of the one before. -/
theorem read_attemptAll {c : Cell} (hc : e.Contains c) {r : Record k.size}
    (hr : (k.window (e.index c)).read bytes = r.toList) (ws : List Write) :
    (k.window (e.index c)).read (attemptAll e k ws bytes) =
      ((ws.filterMap (Write.changeAt? e k c)).foldl (fun r change => change.apply r) r).toList := by
  induction ws generalizing bytes r with
  | nil => exact hr
  | cons w ws ih =>
    have hstep := read_left_perform hlength hc hr w
    refine (ih (length_left_perform hlength w) hstep).trans ?_
    rw [List.filterMap_cons]
    rcases w.changeAt? e k c with _ | change <;> rfl

end Step

/-! ## Reading -/

theorem run_index (bytes : List UInt8) {c : Cell} (hc : e.Contains c) :
    (index e c.x c.y c.z).run bytes = .ok (e.index c) bytes := by
  have hin : (0 ≤ (c.x : Int) ∧ 0 ≤ (c.y : Int) ∧ 0 ≤ (c.z : Int)) ∧ e.Contains c :=
    ⟨⟨Int.natCast_nonneg _, Int.natCast_nonneg _, Int.natCast_nonneg _⟩, hc⟩
  have hcell : e.cellAt c.x c.y c.z = .ok c := if_pos hin
  rw [index_eq, hcell]
  rfl

theorem run_checkIndex (bytes : List UInt8) {i : Nat} (hi : i < e.count) :
    (checkIndex e i).run bytes = .ok i bytes := by
  rw [checkIndex, if_pos ⟨Int.natCast_nonneg _, hi⟩]
  rfl

/-! ## The same run on records -/

/-- A write to the bytes of a buffer is the write to the buffer. -/
theorem run_perform_bytes (b : Buffer k) (w : Write) :
    (perform b.extent k w).run b.bytes =
      match b.perform w with
      | .ok b' => .ok () b'.bytes
      | .error fault => .error fault b.bytes := by
  rcases b.perform_cases w with ⟨fault, haim, hperform⟩ | ⟨c, change, hc, haim, hperform⟩
  · rcases run_perform b.length_bytes w with ⟨fault', haim', hrun⟩ | ⟨_, _, _, _, haim', _, _⟩
    · rw [hrun, hperform, Except.error.inj (haim'.symm.trans haim)]
    · cases haim'.symm.trans haim
  · rcases run_perform b.length_bytes w with ⟨_, haim', _⟩ | ⟨d, change', r, _, haim', hr, hrun⟩
    · cases haim'.symm.trans haim
    · obtain ⟨rfl, rfl⟩ := Prod.mk.inj (Except.ok.inj (haim'.symm.trans haim))
      have hrecord : r = b.recordAt d := by
        rw [Buffer.recordAt_of_contains hc]
        exact Vector.toList_inj.mp (hr.symm.trans (b.read_window_bytes ⟨_, _⟩))
      rw [hrun, hperform, hrecord]
      exact congrArg (EStateM.Result.ok ()) (b.bytes_apply ⟨⟨_, _⟩, _⟩).symm

/-- A run on the bytes of a buffer is the run on the buffer. -/
theorem attemptAll_bytes (b : Buffer k) (ws : List Write) :
    attemptAll b.extent k ws b.bytes = (b.attemptAll ws).bytes := by
  induction ws generalizing b with
  | nil => rfl
  | cons w ws ih =>
    have hstep : (perform b.extent k w).left b.bytes = (b.attempt w).bytes := by
      rw [left, run_perform_bytes, Buffer.attempt]
      cases b.perform w with
      | error fault => rfl
      | ok b' => rfl
    have hrest := ih (b.attempt w)
    rw [Buffer.extent_attempt, ← hstep] at hrest
    exact hrest

/-! ## All together -/

theorem zeros_of_allocate {b : Buffer k} (h : Buffer.allocate k e = .ok b) :
    zeros k e = .ok (List.replicate (e.count * k.size) 0) := by
  unfold Buffer.allocate at h
  split at h
  · cases h
  · next n hn =>
    rw [zeros, hn, Extent.eq_of_byteLength? hn]
    rfl

theorem read_window_replicate (k : Kind) {n i : Nat} (hi : i < n) :
    (k.window i).read (List.replicate (n * k.size) 0) = (Record.blank k.size).toList := by
  have hstop : (k.window i).stop ≤ n * k.size := Kind.window_stop_le hi
  rw [Slice.read, List.take_replicate, List.drop_replicate, Nat.min_eq_left hstop, k.window_length]
  exact Vector.toList_replicate.symm

theorem bytes_empty (e : Extent) :
    (⟨e, ∅⟩ : Buffer k).bytes = List.replicate (e.count * k.size) 0 := by
  refine Kind.eq_of_windows (Buffer.length_bytes _) List.length_replicate fun i hi => ?_
  rw [read_window_replicate k hi]
  refine (Buffer.read_window_bytes (⟨e, ∅⟩ : Buffer k) ⟨i, hi⟩).trans ?_
  exact congrArg Vector.toList (Written.record_empty _)

/-- After some writes a run of bytes is as long as that of a buffer, each record is found by its
coordinates and by its number as what the writes that aimed at it make of a blank one, a further
write that fails leaves all bytes alone, and everything is as if the writes had been carried out
on the buffer. -/
structure Faithful (b : Buffer k) (ws : List Write) (bytes : List UInt8) : Prop where
  length_eq : bytes.length = b.extent.width * b.extent.depth * b.extent.height * k.size
  reads : ∀ c : Cell, b.extent.Contains c → ∃ i,
    (index b.extent c.x c.y c.z).run bytes = .ok i bytes ∧
      (get k b.extent c.x c.y c.z).run bytes = .ok (history b.extent k c ws) bytes ∧
      (getEntry k b.extent i).run bytes = .ok (history b.extent k c ws) bytes
  fails_iff : ∀ w fault, (∃ bytes', (perform b.extent k w).run bytes = .error fault bytes') ↔
    w.aim b.extent k = .error fault
  unchanged : ∀ w fault bytes', (perform b.extent k w).run bytes = .error fault bytes' →
    bytes' = bytes
  bytes_eq : bytes = (b.attemptAll ws).bytes
  refines : ∀ w, (perform b.extent k w).run bytes =
    match (b.attemptAll ws).perform w with
    | .ok b' => .ok () b'.bytes
    | .error fault => .error fault bytes

theorem faithful_attemptAll {b : Buffer k} (hb : b = ⟨b.extent, ∅⟩) (ws : List Write) :
    Faithful b ws (attemptAll b.extent k ws (List.replicate (b.extent.count * k.size) 0)) := by
  have hlength : (attemptAll b.extent k ws (List.replicate (b.extent.count * k.size) 0)).length =
      b.extent.count * k.size := length_attemptAll List.length_replicate ws
  have hbytes : attemptAll b.extent k ws (List.replicate (b.extent.count * k.size) 0) =
      (b.attemptAll ws).bytes := by
    rw [← attemptAll_bytes, ← bytes_empty, ← hb]
  constructor
  case length_eq => exact hlength
  case reads =>
    intro c hc
    have hi := Extent.index_lt_count hc
    have hblank := read_window_replicate k hi
    have hread := read_attemptAll List.length_replicate hc hblank ws
    refine ⟨b.extent.index c, run_index _ hc, ?_, ?_⟩
    · rw [get, EStateM.run_bind, run_index _ hc]
      exact run_decode hread
    · rw [getEntry, EStateM.run_bind, run_checkIndex _ hi]
      exact run_decode hread
  case fails_iff =>
    intro w fault
    rcases run_perform hlength w with ⟨fault', haim, hrun⟩ | ⟨c, change, r, _, haim, _, hrun⟩
    · rw [hrun, haim]
      simp only [EStateM.Result.error.injEq, Except.error.injEq, exists_and_left, exists_eq',
        and_true]
    · rw [hrun, haim]
      simp only [reduceCtorEq, exists_false]
  case unchanged => exact fun w fault bytes' => allOrNothing_perform b.extent k w _ fault bytes'
  case bytes_eq => exact hbytes
  case refines =>
    intro w
    rw [hbytes, ← run_perform_bytes, Buffer.extent_attemptAll]

/-- Whatever box is declared, and whatever is written to its bytes: writes that succeed are found
where they were aimed at, writes that fail change nothing, and no byte is added or lost. -/
theorem attemptAll_faithful {width depth height : Value} {b : Buffer k}
    (hb : Buffer.declare width depth height (.ok k) = .ok ⟨k, b⟩) :
    ∃ bytes, zeros k b.extent = .ok bytes ∧
      ∀ ws, Faithful b ws (attemptAll b.extent k ws bytes) := by
  have hallocate := Buffer.allocate_of_declare hb
  exact ⟨_, zeros_of_allocate hallocate, faithful_attemptAll (Buffer.eq_of_allocate hallocate)⟩

/-- A voxel by its number, one byte of it by its cell and counted from the end, and between the
two a record that is too short, a cell outside the box and a channel that is no byte. -/
def overlapping : List Write :=
  [.entry 3 (.color (.ofInts 9 8 7 6)), .record 1 1 0 [1, 2], .voxel 2 0 0 (.slot (.int 0)),
   .voxel 1 1 0 (.color (.ofInts 256 0 0 0)), .byte 1 1 0 (.int (-1)) (.int 200)]

theorem attemptAll_faithful_overlapping :
    ∃ b : Canvas, Buffer.declare (.int 2) (.int 2) (.int 1) (.ok .rgba) = .ok ⟨.rgba, b⟩ ∧
      ∃ bytes, zeros .rgba b.extent = .ok bytes ∧
        (attemptAll b.extent .rgba overlapping bytes).length = 16 ∧
        (get .rgba b.extent 1 1 0).run (attemptAll b.extent .rgba overlapping bytes) =
          .ok #v[9, 8, 7, 200] (attemptAll b.extent .rgba overlapping bytes) ∧
        ∃ bytes', (perform b.extent .rgba (.record 1 1 0 [1, 2])).run
          (attemptAll b.extent .rgba overlapping bytes) = .error (.recordLength 2 4) bytes' := by
  have hb : Buffer.declare (.int 2) (.int 2) (.int 1) (.ok .rgba) =
      .ok ⟨.rgba, (⟨⟨2, 2, 1⟩, ∅⟩ : Canvas)⟩ := rfl
  obtain ⟨bytes, hzeros, hfaithful⟩ := attemptAll_faithful hb
  obtain ⟨i, -, hget, -⟩ := (hfaithful overlapping).reads ⟨1, 1, 0⟩ (by decide)
  have hhistory : history ⟨2, 2, 1⟩ .rgba ⟨1, 1, 0⟩ overlapping = #v[9, 8, 7, 200] := by
    rfl
  rw [hhistory] at hget
  exact ⟨_, hb, bytes, hzeros, (hfaithful overlapping).length_eq, hget,
    ((hfaithful overlapping).fails_iff (.record 1 1 0 [1, 2]) _).mpr rfl⟩

end Flat
end VoxelCurve
