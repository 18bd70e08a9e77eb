import Mathlib.Data.List.Forall2
import VoxelCurve.Proofs.Vox.RoundTrip

/-!
Children in any order, among chunks that nobody knows.

A file is read by its headers.  What a child of the main chunk holds is looked at only if its
identifier is one of three, and then only from the start of its content, so bytes that spell
an identifier inside a content or among the children of a child are never taken for a header.
`decode_arranged` draws the conclusion: where three children hold enough, the model is what
their contents begin with, and every file with these three among its children, in whatever
order and with whatever around them, has the same model.
-/

namespace VoxelCurve
namespace Vox

/-! ## Windows by their chunks -/

/-- The window shows the chunk, wherever that lies and whatever lies behind it. -/
def Chunk.ShownBy (c : Chunk) (w : Window) : Prop :=
  ∃ offset rest, w = c.window offset rest

theorem Chunk.ShownBy.id_eq {c : Chunk} {w : Window} (h : c.ShownBy w) : w.id = c.id := by
  obtain ⟨offset, rest, rfl⟩ := h
  rfl

theorem Chunk.ShownBy.content_prefix {c : Chunk} {w : Window} (h : c.ShownBy w) :
    c.content <+: w.bytes := by
  obtain ⟨offset, rest, rfl⟩ := h
  exact ⟨c.children ++ rest, (List.append_assoc _ _ _).symm⟩

theorem shownBy_windowsOf (cs : List Chunk) (offset : Nat) (rest : List UInt8) :
    List.Forall₂ Chunk.ShownBy cs (windowsOf cs offset rest) := by
  induction cs generalizing offset with
  | nil => exact .nil
  | cons c cs ih => exact .cons ⟨offset, chunkBytes cs ++ rest, rfl⟩ (ih _)

/-- The only chunk with an identifier is shown by the only window with it. -/
theorem exists_shownBy_of_filter {cs : List Chunk} {windows : List Window} {id : List UInt8}
    {c : Chunk} (h : List.Forall₂ Chunk.ShownBy cs windows)
    (hc : (cs.filter fun c => c.id = id) = [c]) :
    ∃ w, c.ShownBy w ∧ (windows.filter fun w => w.id = id) = [w] := by
  have hf : List.Forall₂ Chunk.ShownBy (cs.filter fun c => c.id = id)
      (windows.filter fun w => w.id = id) := by
    refine List.rel_filter (fun c w hw => ?_) h
    simp only [decide_eq_true_eq, hw.id_eq]
  rw [hc] at hf
  obtain ⟨w, rest, hw, hrest, heq⟩ := List.forall₂_cons_left_iff.mp hf
  rw [List.forall₂_nil_left_iff.mp hrest] at heq
  exact ⟨w, hw, heq⟩

/-! ## What three contents begin with -/

/-- Among some chunks there is one each with the sides, the voxels and the palette, and their
contents hold as much as they should. -/
structure Furnish (cs : List Chunk) (size voxels palette : Chunk) : Prop where
  size_eq : (cs.filter fun c => c.id = Id.size) = [size]
  voxels_eq : (cs.filter fun c => c.id = Id.voxels) = [voxels]
  palette_eq : (cs.filter fun c => c.id = Id.palette) = [palette]
  size_le : 12 ≤ size.content.length
  voxels_le : ∃ count records, voxels.content = wordBytes count ++ records ∧
    4 * count.toNat ≤ records.length
  palette_le : 1024 ≤ palette.content.length

/-- Three contents begin with the fields of a model: its sides, the number of its voxels with
the voxels themselves, and its palette. -/
structure Model.Heads (m : Model) (size voxels palette : List UInt8) : Prop where
  sides : m.sizeBytes <+: size
  numVoxels_le : m.numVoxels ≤ maxWord
  voxels : m.voxelBytes <+: voxels
  palette : m.palette.bytes <+: palette

theorem Furnish.exists_heads {cs : List Chunk} {size voxels palette : Chunk}
    (h : Furnish cs size voxels palette) (version : UInt32) :
    ∃ m : Model, m.version = version ∧
      m.Heads size.content voxels.content palette.content := by
  obtain ⟨⟨width, depth, height⟩, hs⟩ := exists_readSides?_iff.mpr h.size_le
  obtain ⟨p, hp⟩ := exists_readPalette?_iff.mpr h.palette_le
  obtain ⟨count, records, hc, hle⟩ := h.voxels_le
  have hw : readWord? voxels.content = some (count, records) := by
    rw [hc, readWord?_wordBytes]
  have hdemand : voxelDemand voxels.content ≤ voxels.content.length := by
    have hlen := length_of_readWord? hw
    simp only [voxelDemand, hw]
    omega
  let w : Window := ⟨Id.voxels, 0, 0, 0, voxels.content⟩
  obtain ⟨vs, hv⟩ : ∃ vs, readVoxels 0 w = .ok vs := exists_readVoxels_iff.mpr hdemand
  let m : Model := ⟨width, depth, height, vs, p, version⟩
  have hvoxels : m.voxelBytes <+: w.bytes := Model.voxelBytes_prefix hv
  exact ⟨m, rfl, Model.sizeBytes_prefix hs, (readVoxels_eq_ok_iff.mp hv).1, hvoxels,
    Model.paletteBytes_prefix hp⟩

/-! ## Files -/

/-- A file by its chunks: the main one with the chunks among its children, and those that lie
behind it. -/
structure File where
  version : UInt32
  main : Chunk
  children : List Chunk
  more : List Chunk
  main_id : main.id = Id.main
  children_eq : main.children = chunkBytes children

namespace File

def bytes (f : File) : List UInt8 :=
  signature ++ wordBytes f.version ++ chunkBytes (f.main :: f.more)

theorem exists_mainChildren? (f : File) :
    ∃ windows, mainChildren? f.bytes = some (f.version, windows) ∧
      List.Forall₂ Chunk.ShownBy f.children windows :=
  ⟨_, mainChildren?_chunks f.version f.more f.children f.main_id f.children_eq,
    shownBy_windowsOf f.children _ _⟩

/-- The model of a file is the one whose fields its children begin with. -/
theorem decode_bytes (f : File) {size voxels palette : Chunk}
    (h : Furnish f.children size voxels palette) {m : Model} (hversion : m.version = f.version)
    (hm : m.Heads size.content voxels.content palette.content) : decode f.bytes = .ok m := by
  obtain ⟨windows, hmain, hshown⟩ := f.exists_mainChildren?
  obtain ⟨sw, hsw, hsize⟩ := exists_shownBy_of_filter hshown h.size_eq
  obtain ⟨vw, hvw, hvoxels⟩ := exists_shownBy_of_filter hshown h.voxels_eq
  obtain ⟨pw, hpw, hpalette⟩ := exists_shownBy_of_filter hshown h.palette_eq
  have hs := Model.readSides?_of_prefix (hm.sides.trans hsw.content_prefix)
  have hv := Model.readVoxels_of_prefix hm.numVoxels_le (hm.voxels.trans hvw.content_prefix)
  have hp := Model.readPalette?_of_prefix (hm.palette.trans hpw.content_prefix)
  have hsel : Selected f.bytes m.version windows sw vw pw :=
    ⟨hversion ▸ hmain, hsize, findRev?_of_filter hvoxels, findRev?_of_filter hpalette⟩
  have only : ∀ {id : List UInt8} {v w : Window},
      (windows.filter fun w => w.id = id) = [v] → w ∈ windows → w.id = id → w = v := by
    intro id v w hf hw hid
    have hmem : w ∈ windows.filter fun w => w.id = id :=
      List.mem_filter.mpr ⟨hw, decide_eq_true hid⟩
    rw [hf] at hmem
    exact List.mem_singleton.mp hmem
  -- only three windows demand anything, and what is demanded of these was read
  have hall : ∀ w ∈ windows, w.demand ≤ w.bytes.length := by
    intro w hw
    by_cases hid : w.id = Id.size
    · rw [Window.demand_size hid, ← exists_readSides?_iff, only hsize hw hid]
      exact ⟨_, hs⟩
    by_cases hid' : w.id = Id.voxels
    · rw [Window.demand_voxels hid', only hvoxels hw hid']
      exact exists_readVoxels_iff.mp ⟨_, hv 0⟩
    by_cases hid'' : w.id = Id.palette
    · rw [Window.demand_palette hid'', ← exists_readPalette?_iff, only hpalette hw hid'']
      exact ⟨_, hp⟩
    · rw [Window.demand, if_neg hid, if_neg hid', if_neg hid'']
      exact Nat.zero_le _
  exact decode_eq_ok_iff_selected.mpr ⟨windows, sw, vw, pw, hsel, hall, hs, hv _, hp⟩

end File

/-! ## Other files with the same three chunks -/

/-- Whether a child with this identifier is looked at. -/
def Chunk.isKnown (c : Chunk) : Bool :=
  c.id = Id.size ∨ c.id = Id.voxels ∨ c.id = Id.palette

/-- Chunks with a known identifier are all among the known ones. -/
theorem filter_isKnown (cs : List Chunk) {id : List UInt8}
    (h : id = Id.size ∨ id = Id.voxels ∨ id = Id.palette) :
    ((cs.filter Chunk.isKnown).filter fun c => c.id = id) = cs.filter fun c => c.id = id := by
  rw [List.filter_filter]
  refine List.filter_congr fun c _ => ?_
  by_cases hid : c.id = id
  · have hc : c.isKnown = true := decide_eq_true (hid ▸ h)
    rw [hc, Bool.and_true]
  · rw [decide_eq_false hid, Bool.false_and]

theorem Furnish.of_perm {cs ds : List Chunk} {size voxels palette : Chunk}
    (h : Furnish cs size voxels palette)
    (hp : (ds.filter Chunk.isKnown).Perm (cs.filter Chunk.isKnown)) :
    Furnish ds size voxels palette := by
  have same : ∀ {id : List UInt8} {c : Chunk},
      id = Id.size ∨ id = Id.voxels ∨ id = Id.palette →
      (cs.filter fun c => c.id = id) = [c] → (ds.filter fun c => c.id = id) = [c] := by
    intro id c hid hc
    have hperm := hp.filter fun c => c.id = id
    rw [filter_isKnown ds hid, filter_isKnown cs hid, hc] at hperm
    exact List.perm_singleton.mp hperm
  exact ⟨same (.inl rfl) h.size_eq, same (.inr (.inl rfl)) h.voxels_eq,
    same (.inr (.inr rfl)) h.palette_eq, h.size_le, h.voxels_le, h.palette_le⟩

/-- Where the children furnish the fields, a file has the model that their contents begin
with, and so has every file of this version with the same known children, in any order, among
any other chunks, whatever else its main chunk holds and whatever lies behind that. -/
theorem decode_arranged (f : File) {size voxels palette : Chunk}
    (h : Furnish f.children size voxels palette) :
    ∃ m, decode f.bytes = .ok m ∧ m.version = f.version ∧
      m.Heads size.content voxels.content palette.content ∧
      ∀ f' : File, f'.version = f.version →
        (f'.children.filter Chunk.isKnown).Perm (f.children.filter Chunk.isKnown) →
        decode f'.bytes = .ok m := by
  obtain ⟨m, hversion, hm⟩ := h.exists_heads f.version
  refine ⟨m, f.decode_bytes h hversion hm, hversion, hm, ?_⟩
  intro f' hv hp
  exact f'.decode_bytes (h.of_perm hp) (hversion.trans hv.symm) hm

/-- The palette before the voxels before the sides, each with more content than is read, and
around them chunks whose contents and children spell a header with the sides. -/
def shuffled : File :=
  let spelled := Id.size ++ wordBytes 12 ++ wordBytes 0 ++ List.replicate 12 9
  let unknown : Chunk := ⟨[0x4E, 0x4F, 0x54, 0x45], spelled, spelled, rfl, by decide, by decide⟩
  let palette := Chunk.leaf [0x52, 0x47, 0x42, 0x41] (List.replicate 1030 7) rfl
    (by decide +kernel)
  let voxels : Chunk := ⟨[0x58, 0x59, 0x5A, 0x49], wordBytes 1 ++ [1, 0, 0, 255, 5], spelled, rfl,
    by decide, by decide⟩
  let size := Chunk.leaf [0x53, 0x49, 0x5A, 0x45]
    (wordBytes 2 ++ wordBytes 1 ++ wordBytes 1 ++ [8]) rfl (by decide)
  let children := [unknown, palette, voxels, unknown, size]
  { version := 200
    main := ⟨[0x4D, 0x41, 0x49, 0x4E], spelled, chunkBytes children, rfl, by decide,
      by decide +kernel⟩
    children
    more := [unknown]
    main_id := rfl
    children_eq := rfl }

theorem decode_arranged_shuffled :
    ∃ size voxels palette, Furnish shuffled.children size voxels palette ∧
      ∃ m, decode shuffled.bytes = .ok m ∧ m.version = shuffled.version ∧
        m.Heads size.content voxels.content palette.content ∧
        ∀ f' : File, f'.version = shuffled.version →
          (f'.children.filter Chunk.isKnown).Perm (shuffled.children.filter Chunk.isKnown) →
          decode f'.bytes = .ok m := by
  have h : Furnish shuffled.children shuffled.children[4] shuffled.children[2]
      shuffled.children[1] :=
    ⟨rfl, rfl, rfl, by decide, ⟨1, [1, 0, 0, 255, 5], rfl, by decide⟩, by decide +kernel⟩
  exact ⟨_, _, _, h, decode_arranged shuffled h⟩

end Vox
end VoxelCurve
