import VoxelCurve.Proofs.Vox.Fields

/-!
Writing a model and reading it back.

The three contents of a model are packed as chunks, and these as the children of one main
chunk.  Which bytes stand in them does not matter: the walk counts them and never looks at
them.  What matters is that the sizes fit a word, and `Fits` is the condition on the number
of voxels under which all of them do.
-/

namespace VoxelCurve
namespace Vox

/-- The children of a main chunk that lies in front of other chunks. -/
theorem mainChildren?_chunks (version : UInt32) {main : Chunk} (more cs : List Chunk)
    (hid : main.id = Id.main) (hcs : main.children = chunkBytes cs) :
    mainChildren? (signature ++ wordBytes version ++ chunkBytes (main :: more)) =
      some (version, windowsOf cs (20 + main.content.length) (chunkBytes more)) := by
  generalize hb : signature ++ wordBytes version ++ chunkBytes (main :: more) = bytes
  have hlen : bytes.length = 8 + (chunkBytes (main :: more)).length := by
    rw [← hb, List.length_append, List.length_append, length_wordBytes]
    rfl
  have htop := walk_chunkBytes bytes.length (main :: more) 8 []
  rw [← hlen, List.append_nil, windowsOf, List.append_nil] at htop
  have hchildren : childWalk bytes.length (main.window 8 (chunkBytes more)) =
      ⟨windowsOf cs (20 + main.content.length) (chunkBytes more), none⟩ := by
    have hdrop : (main.content ++ main.children ++ chunkBytes more).drop main.content.length =
        chunkBytes cs ++ chunkBytes more := by
      rw [List.append_assoc, List.drop_left, hcs]
    have hwalk := walk_chunkBytes bytes.length cs (20 + main.content.length) (chunkBytes more)
    rw [← hdrop, ← hcs] at hwalk
    exact hwalk
  rw [mainChildren?_eq_some_iff]
  exact ⟨_, _, _, hb.symm, htop, hid, hchildren⟩

namespace Model

/-! ## The chunks of a model -/

/-- All sizes in the file of a model are words. -/
def Fits (m : Model) : Prop :=
  1076 + 4 * m.numVoxels ≤ maxWord

instance (m : Model) : Decidable m.Fits :=
  inferInstanceAs (Decidable (_ ≤ _))

def sizeChunk (m : Model) : Chunk :=
  .leaf Id.size m.sizeBytes rfl (by rw [length_sizeBytes]; decide)

def voxelChunk (m : Model) (h : m.Fits) : Chunk :=
  .leaf Id.voxels m.voxelBytes rfl (by rw [length_voxelBytes]; unfold Fits at h; omega)

def paletteChunk (m : Model) : Chunk :=
  .leaf Id.palette m.palette.bytes rfl (by rw [length_paletteBytes]; decide)

/-- The children of the main chunk of a model. -/
def chunks (m : Model) (h : m.Fits) : List Chunk :=
  [m.sizeChunk, m.voxelChunk h, m.paletteChunk]

theorem chunkBytes_chunks (m : Model) (h : m.Fits) :
    chunkBytes (m.chunks h) =
      m.sizeChunk.bytes ++ (m.voxelChunk h).bytes ++ m.paletteChunk.bytes := by
  simp only [chunks, chunkBytes, List.flatMap_cons, List.flatMap_nil, List.append_nil,
    List.append_assoc]

theorem length_chunkBytes_chunks (m : Model) (h : m.Fits) :
    (chunkBytes (m.chunks h)).length = 1076 + 4 * m.numVoxels := by
  simp only [chunkBytes_chunks, List.length_append, Chunk.length_bytes, sizeChunk, voxelChunk,
    paletteChunk, Chunk.leaf, length_sizeBytes, length_voxelBytes, length_paletteBytes,
    List.length_nil, headerSize]
  omega

def mainChunk (m : Model) (h : m.Fits) : Chunk where
  id := Id.main
  content := []
  children := chunkBytes (m.chunks h)
  id_length := rfl
  content_le := Nat.zero_le _
  children_le := by
    rw [length_chunkBytes_chunks]
    exact h

/-- The file of a model. -/
def fileBytes (m : Model) (h : m.Fits) : List UInt8 :=
  signature ++ wordBytes m.version ++ chunkBytes [m.mainChunk h]

theorem length_fileBytes (m : Model) (h : m.Fits) :
    (m.fileBytes h).length = 1096 + 4 * m.numVoxels := by
  have hm : (m.mainChunk h).bytes.length = headerSize + 0 + (1076 + 4 * m.numVoxels) := by
    rw [Chunk.length_bytes, ← m.length_chunkBytes_chunks h]
    rfl
  have hs : signature.length = 4 := rfl
  rw [fileBytes, chunkBytes, List.flatMap_singleton, List.length_append, List.length_append,
    length_wordBytes, hs, hm, headerSize]
  omega

/-! ## Writing -/

theorem encode_eq_fileBytes (m : Model) (h : m.Fits) : m.encode = .ok (m.fileBytes h) := by
  have hle : ¬(chunkBytes (m.chunks h)).length > maxWord := by
    rw [length_chunkBytes_chunks]
    exact Nat.not_lt.mpr h
  simp only [encode, bind_eq_ok_iff]
  refine ⟨_, m.sizeChunk.pack_eq, _, (m.voxelChunk h).pack_eq, _, m.paletteChunk.pack_eq, ?_⟩
  rw [← chunkBytes_chunks, if_neg hle, bind_eq_ok_iff]
  refine ⟨_, (m.mainChunk h).pack_eq, ?_⟩
  rw [fileBytes, chunkBytes, List.flatMap_singleton]

theorem fits_of_encode {m : Model} {bytes : List UInt8} (h : m.encode = .ok bytes) :
    m.Fits := by
  simp only [encode, bind_eq_ok_iff] at h
  obtain ⟨size, hs, voxels, hv, palette, hp, h⟩ := h
  have hs := Chunk.length_of_pack hs
  have hv := Chunk.length_of_pack hv
  have hp := Chunk.length_of_pack hp
  split at h
  · cases h
  · next hle =>
    simp only [length_sizeBytes, length_voxelBytes, length_paletteBytes, List.length_nil,
      headerSize, List.length_append] at hs hv hp hle
    unfold Fits
    omega

/-! ## Reading back -/

theorem mainChildren?_fileBytes (m : Model) (h : m.Fits) :
    mainChildren? (m.fileBytes h) = some (m.version, windowsOf (m.chunks h) 20 []) :=
  mainChildren?_chunks m.version [] (m.chunks h) rfl rfl

theorem decode_fileBytes (m : Model) (h : m.Fits) : decode (m.fileBytes h) = .ok m := by
  let palette := m.paletteChunk.window (20 + m.sizeChunk.bytes.length +
    (m.voxelChunk h).bytes.length) []
  let voxels := (m.voxelChunk h).window (20 + m.sizeChunk.bytes.length)
    (chunkBytes [m.paletteChunk])
  let size := m.sizeChunk.window 20 (chunkBytes [m.voxelChunk h, m.paletteChunk])
  have hwindows : windowsOf (m.chunks h) 20 [] = [size, voxels, palette] := by
    simp only [chunks, windowsOf, size, voxels, palette, List.append_nil]
    rfl
  have hs : readSides? size.bytes = some (m.width, m.depth, m.height) := by
    rw [readSides?_eq_some_iff]
    exact ⟨_, List.append_assoc _ _ _⟩
  have hv : readVoxels (m.fileBytes h).length voxels = .ok m.voxels := by
    rw [readVoxels_eq_ok_iff]
    refine ⟨?_, _, List.append_assoc _ _ _⟩
    unfold Fits numVoxels at h
    omega
  have hp : readPalette? palette.bytes = some m.palette := by
    rw [readPalette?_eq_some_iff]
    exact ⟨_, List.append_assoc _ _ _⟩
  have hall : ∀ w ∈ [size, voxels, palette], w.demand ≤ w.bytes.length := by
    simp only [List.forall_mem_cons]
    refine ⟨?_, ?_, ?_, fun _ hw => absurd hw List.not_mem_nil⟩
    · rw [Window.demand_size rfl, ← exists_readSides?_iff]
      exact ⟨_, hs⟩
    · rw [Window.demand_voxels rfl, ← exists_readVoxels_iff]
      exact ⟨_, hv⟩
    · rw [Window.demand_palette rfl, ← exists_readPalette?_iff]
      exact ⟨_, hp⟩
  have hsel : Selected (m.fileBytes h) m.version [size, voxels, palette] size voxels palette :=
    ⟨hwindows ▸ m.mainChildren?_fileBytes h, rfl, rfl, rfl⟩
  exact decode_eq_ok_iff_selected.mpr ⟨_, size, voxels, palette, hsel, hall, hs, hv, hp⟩

theorem readHeader?_fileBytes (m : Model) (h : m.Fits) :
    ∃ header, readHeader? ((m.fileBytes h).drop 8) = some header ∧ header.id = Id.main ∧
      header.childrenSize.toNat = (m.fileBytes h).length - 20 := by
  have hdrop : (m.fileBytes h).drop 8 = (m.mainChunk h).bytes ++ [] := rfl
  refine ⟨_, hdrop ▸ (m.mainChunk h).readHeader?_bytes [], rfl, ?_⟩
  rw [toNat_ofNat_of_le_maxWord (m.mainChunk h).children_le, length_fileBytes]
  show (chunkBytes (m.chunks h)).length = _
  rw [length_chunkBytes_chunks]
  omega

theorem decode_of_encode {m : Model} {bytes : List UInt8} (h : m.encode = .ok bytes) :
    decode bytes = .ok m := by
  have hf := fits_of_encode h
  rw [encode_eq_fileBytes m hf] at h
  cases h
  exact m.decode_fileBytes hf

/-- Every model whose sizes are words is written, in a file of a known length whose main
header counts all that follows it, and is read back as it was. -/
theorem decode_encode (m : Model) (h : m.Fits) :
    ∃ bytes, m.encode = .ok bytes ∧ bytes.length = 1096 + 4 * m.numVoxels ∧
      (∃ header, readHeader? (bytes.drop 8) = some header ∧ header.id = Id.main ∧
        header.childrenSize.toNat = bytes.length - 20) ∧
      decode bytes = .ok m :=
  ⟨m.fileBytes h, m.encode_eq_fileBytes h, m.length_fileBytes h, m.readHeader?_fileBytes h,
    m.decode_fileBytes h⟩

/-- A voxel outside the sides, twice, in no slot. -/
theorem decode_encode_outside :
    let m : Model := ⟨1, 1, 1, [⟨7, 7, 7, 0⟩, ⟨7, 7, 7, 0⟩], .ofColors [], 0xFFFFFFFF⟩
    m.Fits ∧ ∃ bytes, m.encode = .ok bytes ∧ bytes.length = 1096 + 4 * m.numVoxels ∧
      (∃ header, readHeader? (bytes.drop 8) = some header ∧ header.id = Id.main ∧
        header.childrenSize.toNat = bytes.length - 20) ∧
      decode bytes = .ok m :=
  ⟨by decide, decode_encode _ (by decide)⟩

end Model
end Vox
end VoxelCurve
