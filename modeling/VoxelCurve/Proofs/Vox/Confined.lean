import VoxelCurve.Proofs.Vox.Fields

/-!
Fields that stand in their own chunks.

A field is read from where the content of its chunk starts, but nothing compares what is read
with the content that the chunk declares.  A chunk that declares less therefore borrows the
bytes behind it, for as long as the file goes on.  A model is `Confined` where this does not
happen, and whether it can happen is a question about the headers of a file, the number of
voxels and the end of the file, which `confined_of_decode_iff` answers.
-/

namespace VoxelCurve
namespace Vox

/-- The content that a chunk declares. -/
def Window.content (w : Window) : List UInt8 :=
  w.bytes.take w.contentSize

/-- Each field of a model stands in the content of its own chunk, which declares enough. -/
def Confined (bytes : List UInt8) (m : Model) : Prop :=
  ∃ children size voxels palette, Selected bytes m.version children size voxels palette ∧
    (12 ≤ size.contentSize ∧ m.sizeBytes <+: size.content) ∧
    (4 + 4 * m.numVoxels ≤ voxels.contentSize ∧ m.voxelBytes <+: voxels.content) ∧
    (1024 ≤ palette.contentSize ∧ m.palette.bytes <+: palette.content)

/-- The three chunks that fields are read from declare as much as is read from them. -/
def Ample (size voxels palette : Window) : Prop :=
  size.demand ≤ size.contentSize ∧ voxels.demand ≤ voxels.contentSize ∧
    palette.demand ≤ palette.contentSize

section Reads

variable {bytes : List UInt8} {m : Model} {children : List Window}
  {size voxels palette : Window}

/-- Whether the fields that are read from three chunks stand in them. -/
theorem confined_iff_ample (h : Selected bytes m.version children size voxels palette)
    (hs : readSides? size.bytes = some (m.width, m.depth, m.height))
    (hv : readVoxels bytes.length voxels = .ok m.voxels)
    (hp : readPalette? palette.bytes = some m.palette) :
    Confined bytes m ↔ Ample size voxels palette := by
  obtain ⟨⟨-, hsid⟩, ⟨-, hvid⟩, ⟨-, hpid⟩⟩ := h.mem_children
  rw [Ample, Window.demand_size hsid, Window.demand_voxels hvid, Window.demand_palette hpid,
    voxelDemand_of_readVoxels hv]
  constructor
  · intro hc
    obtain ⟨children', size', voxels', palette', h', ⟨hs', -⟩, ⟨hv', -⟩, ⟨hp', -⟩⟩ := hc
    obtain ⟨rfl, rfl, rfl⟩ := h.unique h'
    exact ⟨hs', hv', hp'⟩
  · intro ha
    obtain ⟨hsa, hva, hpa⟩ := ha
    refine ⟨children, size, voxels, palette, h, ⟨hsa, ?_⟩, ⟨hva, ?_⟩, ⟨hpa, ?_⟩⟩
    · exact List.prefix_take_iff.mpr ⟨Model.sizeBytes_prefix hs, m.length_sizeBytes ▸ hsa⟩
    · exact List.prefix_take_iff.mpr ⟨Model.voxelBytes_prefix hv, m.length_voxelBytes ▸ hva⟩
    · exact List.prefix_take_iff.mpr ⟨Model.paletteBytes_prefix hp, m.length_paletteBytes ▸ hpa⟩

/-- Three chunks can be read where the file goes on for long enough behind each child. -/
theorem exists_decode {version : UInt32}
    (h : Selected bytes version children size voxels palette)
    (hall : ∀ w ∈ children, w.demand ≤ w.bytes.length) :
    ∃ m, decode bytes = .ok m ∧ (Confined bytes m ↔ Ample size voxels palette) := by
  obtain ⟨m, hm, rfl, hs, hv, hp⟩ := h.exists_model hall
  exact ⟨m, hm, confined_iff_ample h hs hv hp⟩

end Reads

/-- Reading keeps to the chunks of a file exactly when none of the three chunks that fields
would be read from is short, or some child is cut off by the end of the file. -/
theorem confined_of_decode_iff (bytes : List UInt8) :
    (∀ m, decode bytes = .ok m → Confined bytes m) ↔
      ∀ version children size voxels palette,
        Selected bytes version children size voxels palette →
        (∀ w ∈ children, w.demand ≤ bytes.length - w.offset) →
        Ample size voxels palette := by
  have hlength : ∀ version children, mainChildren? bytes = some (version, children) →
      ∀ w ∈ children, w.bytes.length = bytes.length - w.offset := by
    intro version children hc w hw
    rw [bytes_eq_drop_of_mem_mainChildren hc hw, List.length_drop]
  constructor
  · intro h version children size voxels palette hsel hall
    have hread : ∀ w ∈ children, w.demand ≤ w.bytes.length := by
      intro w hw
      rw [hlength _ _ hsel.children_eq w hw]
      exact hall w hw
    obtain ⟨m, hm, hiff⟩ := exists_decode hsel hread
    exact hiff.mp (h m hm)
  · intro h m hm
    obtain ⟨children, size, voxels, palette, hsel, hall, hs, hv, hp⟩ :=
      decode_eq_ok_iff_selected.mp hm
    rw [confined_iff_ample hsel hs hv hp]
    refine h _ _ _ _ _ hsel ?_
    intro w hw
    rw [← hlength _ _ hsel.children_eq w hw]
    exact hall w hw

/-! ## A file of short chunks -/

/-- A header that declares some sizes, whatever stands behind it. -/
def headerBytes (id : List UInt8) (contentSize childrenSize : Nat) : List UInt8 :=
  id ++ wordBytes (UInt32.ofNat contentSize) ++ wordBytes (UInt32.ofNat childrenSize)

/-- The sides, one voxel and the palette are declared with 0, 4 and 0 bytes of content, and a
chunk that nobody knows stands behind them. -/
def borrowing : List UInt8 :=
  let children := headerBytes Id.size 0 0 ++
    (headerBytes Id.voxels 4 0 ++ wordBytes 1) ++
    headerBytes Id.palette 0 0 ++
    (headerBytes [0x50, 0x41, 0x44, 0x53] 1012 0 ++ List.replicate 1012 0)
  signature ++ wordBytes 150 ++ headerBytes Id.main 0 children.length ++ children

theorem not_confined_borrowing : ∃ m, decode borrowing = .ok m ∧ ¬Confined borrowing m := by
  have hsome : (decode borrowing).toOption.isSome = true := by decide +kernel
  have hshort : ((mainChildren? borrowing).map fun r =>
      (r.2.filter fun w => w.id = Id.size).map Window.contentSize) = some [0] := by
    decide +kernel
  obtain ⟨m, hm⟩ := Option.isSome_iff_exists.mp hsome
  refine ⟨m, toOption_eq_some_iff.mp hm, ?_⟩
  intro h
  obtain ⟨children, size, voxels, palette, hsel, ⟨hle, -⟩, -⟩ := h
  rw [hsel.children_eq, Option.map_some, hsel.size_eq] at hshort
  simp only [List.map_cons, List.map_nil, Option.some.injEq, List.cons.injEq, and_true] at hshort
  omega

end Vox
end VoxelCurve
