import VoxelCurve.Proofs.Success
import VoxelCurve.Proofs.Vox.Chunk

/-!
The layout of a file, and what is read from it.

Reading has two halves.  The first finds the children of the main chunk and looks at
nothing but headers; it is `mainChildren?`.  The second goes through these children and
reads the fields of a model from them.  A file has a model exactly when both halves succeed
(`decode_eq_ok_iff`), so what is said about one half need not open the other.
-/

namespace VoxelCurve
namespace Vox

/-- The windows of a walk that nothing stopped. -/
def Walk.complete? (w : Walk) : Option (List Window) :=
  match w.fault? with
  | none => some w.windows
  | some _ => none

theorem Walk.complete?_eq_some_iff {w : Walk} {windows : List Window} :
    w.complete? = some windows ↔ w = ⟨windows, none⟩ := by
  obtain ⟨found, fault?⟩ := w
  cases fault? with
  | none => simp only [complete?, Option.some.injEq, Walk.mk.injEq, and_true]
  | some fault => simp only [complete?, Walk.mk.injEq, reduceCtorEq, and_false]

/-- The walk through the children of a main chunk. -/
def childWalk (total : Nat) (main : Window) : Walk :=
  walk total main.stop main.childrenOffset (main.bytes.drop main.contentSize)

theorem signed_iff {bytes rest : List UInt8} {version : UInt32} :
    (bytes.take 4 = signature ∧ readWord? (bytes.drop 4) = some (version, rest)) ↔
      bytes = signature ++ wordBytes version ++ rest := by
  constructor
  · intro h
    obtain ⟨hs, hw⟩ := h
    rw [List.append_assoc, ← readWord?_eq_some_iff.mp hw, ← hs, List.take_append_drop]
  · intro h
    obtain rfl := h
    exact ⟨rfl, readWord?_wordBytes version rest⟩

/-- The version of a file and the children of its main chunk, where all chunks fit. -/
def mainChildren? (bytes : List UInt8) : Option (UInt32 × List Window) :=
  if bytes.take 4 = signature then do
    let (version, rest) ← readWord? (bytes.drop 4)
    let top ← (walk bytes.length bytes.length 8 rest).complete?
    let main ← top.head?
    if main.id = Id.main then do
      let children ← (childWalk bytes.length main).complete?
      some (version, children)
    else none
  else none

theorem mainChildren?_eq_some_iff {bytes : List UInt8} {version : UInt32}
    {children : List Window} :
    mainChildren? bytes = some (version, children) ↔
      ∃ rest main more, bytes = signature ++ wordBytes version ++ rest ∧
        walk bytes.length bytes.length 8 rest = ⟨main :: more, none⟩ ∧
        main.id = Id.main ∧ childWalk bytes.length main = ⟨children, none⟩ := by
  constructor
  · intro h
    unfold mainChildren? at h
    split at h
    · next hs =>
      simp only [Option.bind_eq_bind, Option.bind_eq_some_iff, Prod.exists,
        Walk.complete?_eq_some_iff, List.head?_eq_some_iff] at h
      obtain ⟨version', rest, hw, top, htop, main, ⟨more, rfl⟩, h⟩ := h
      split at h
      · next hid =>
        simp only [Option.bind_eq_some_iff, Walk.complete?_eq_some_iff, Option.some.injEq,
          Prod.mk.injEq] at h
        obtain ⟨children', hc, rfl, rfl⟩ := h
        exact ⟨rest, main, more, signed_iff.mp ⟨hs, hw⟩, htop, hid, hc⟩
      · cases h
    · cases h
  · intro h
    obtain ⟨rest, main, more, hb, htop, hid, hc⟩ := h
    obtain ⟨hs, hw⟩ := signed_iff.mpr hb
    simp only [mainChildren?, if_pos hs, hw, htop, hc, if_pos hid, Walk.complete?,
      List.head?_cons, Option.bind_eq_bind, Option.bind_some]

/-- A child shows the file from its offset on. -/
theorem bytes_eq_drop_of_mem_mainChildren {bytes : List UInt8} {version : UInt32}
    {children : List Window} (h : mainChildren? bytes = some (version, children)) {w : Window}
    (hw : w ∈ children) : w.bytes = bytes.drop w.offset := by
  obtain ⟨rest, main, more, hb, htop, -, hc⟩ := mainChildren?_eq_some_iff.mp h
  have hrest : rest = bytes.drop 8 := by
    rw [hb]
    exact (List.drop_left' (by rw [List.length_append, length_wordBytes]; rfl)).symm
  have hmem : main ∈ (walk bytes.length bytes.length 8 rest).windows := by
    rw [htop]
    exact List.mem_cons_self
  have hmain := bytes_eq_drop_of_mem_walk hrest hmem
  have hchild : w ∈ (childWalk bytes.length main).windows := by
    rw [hc]
    exact hw
  refine bytes_eq_drop_of_mem_walk ?_ hchild
  rw [hmain, List.drop_drop]
  rfl

theorem addAll_eq_ok_iff {total : Nat} {p q : Parts} {w : Walk} :
    p.addAll total w = .ok q ↔
      w.windows.foldlM (Parts.add total) p = .ok q ∧ w.fault? = none := by
  rw [Parts.addAll, bind_eq_ok_iff]
  cases w.fault? with
  | none =>
    constructor
    · intro h
      obtain ⟨q', h, hq⟩ := h
      cases hq
      exact ⟨h, rfl⟩
    · intro h
      obtain ⟨h, -⟩ := h
      exact ⟨q, h, rfl⟩
  | some fault =>
    constructor
    · intro h
      obtain ⟨q', -, h⟩ := h
      cases h
    · intro h
      obtain ⟨-, h⟩ := h
      cases h

theorem decodeMain_eq_ok_iff {version : UInt32} {total : Nat} {main : Window} {m : Model} :
    decodeMain version total main = .ok m ↔
      ∃ children p, childWalk total main = ⟨children, none⟩ ∧
        children.foldlM (Parts.add total) {} = .ok p ∧ p.model version = .ok m := by
  rw [decodeMain, bind_eq_ok_iff]
  simp only [addAll_eq_ok_iff]
  constructor
  · intro h
    obtain ⟨p, ⟨hp, hfault⟩, hm⟩ := h
    refine ⟨(childWalk total main).windows, p, ?_, hp, hm⟩
    rw [← Walk.complete?_eq_some_iff, Walk.complete?]
    show (match (childWalk total main).fault? with | none => _ | some _ => _) = _
    rw [show (childWalk total main).fault? = none from hfault]
  · intro h
    obtain ⟨children, p, hw, hp, hm⟩ := h
    refine ⟨p, ⟨?_, ?_⟩, hm⟩
    · show (childWalk total main).windows.foldlM _ _ = _
      rw [hw]
      exact hp
    · show (childWalk total main).fault? = none
      rw [hw]

/-- A file has a model exactly when its chunks fit and its fields can be read. -/
theorem decode_eq_ok_iff {bytes : List UInt8} {m : Model} :
    decode bytes = .ok m ↔
      ∃ version children p, mainChildren? bytes = some (version, children) ∧
        children.foldlM (Parts.add bytes.length) {} = .ok p ∧ p.model version = .ok m := by
  simp only [mainChildren?_eq_some_iff]
  constructor
  · intro h
    simp only [decode] at h
    split at h
    · next hs =>
      split at h
      · cases h
      · next version rest hw =>
        split at h
        · cases h
        · cases h
        · next main more hfault hwindows =>
          split at h
          · next hid =>
            obtain ⟨children, p, hc, hp, hm⟩ := decodeMain_eq_ok_iff.mp h
            refine ⟨version, children, p,
              ⟨rest, main, more, signed_iff.mp ⟨hs, hw⟩, ?_, hid, hc⟩, hp, hm⟩
            rw [← hfault, ← hwindows]
          · cases h
    · cases h
  · intro h
    obtain ⟨version, children, p, ⟨rest, main, more, hb, htop, hid, hc⟩, hp, hm⟩ := h
    obtain ⟨hs, hw⟩ := signed_iff.mpr hb
    simp only [decode, if_pos hs, hw, htop, if_pos hid]
    exact decodeMain_eq_ok_iff.mpr ⟨children, p, hc, hp, hm⟩

end Vox
end VoxelCurve
