import VoxelCurve.Proofs.Vox.Arrangement

/-!
Files of a single model.

Three identifiers name the children of the main chunk that fields are read from.  A second child
with the sides is refused, and that is all that is looked for: of several children with voxels,
or with a palette, the last one takes the place of those before it.  So what is accepted can
hold the records of more than one model, and those of all but one are lost.
`single_of_decode_iff` says for which files this cannot happen.
-/

namespace VoxelCurve
namespace Vox

/-- How many children have an identifier. -/
def occurrences (id : List UInt8) (children : List Window) : Nat :=
  children.countP fun w => w.id = id

/-- The main chunk has one child for each field. -/
def Single (bytes : List UInt8) : Prop :=
  ∃ version children, mainChildren? bytes = some (version, children) ∧
    occurrences Id.size children = 1 ∧ occurrences Id.voxels children = 1 ∧
    occurrences Id.palette children = 1

theorem occurrences_eq_one_iff {id : List UInt8} {children : List Window} :
    occurrences id children = 1 ↔ ∃ w, (children.filter fun w => w.id = id) = [w] := by
  rw [occurrences, List.countP_eq_length_filter, List.length_eq_one_iff]

theorem occurrences_pos_iff {id : List UInt8} {children : List Window} :
    0 < occurrences id children ↔ ∃ w, (children.findRev? fun w => w.id = id) = some w := by
  rw [occurrences, List.countP_pos_iff, List.findRev?_eq_find?_reverse,
    ← Option.isSome_iff_exists, List.find?_isSome]
  simp only [List.mem_reverse]

/-- What has to be true of the children of a main chunk for the file to have a model. -/
structure Readable (bytes : List UInt8) (version : UInt32) (children : List Window) : Prop where
  children_eq : mainChildren? bytes = some (version, children)
  size_eq : occurrences Id.size children = 1
  voxels_pos : 0 < occurrences Id.voxels children
  palette_pos : 0 < occurrences Id.palette children
  /-- the file goes on for as long as each child demands -/
  demand_le : ∀ w ∈ children, w.demand ≤ bytes.length - w.offset

theorem length_bytes_of_mainChildren {bytes : List UInt8} {version : UInt32}
    {children : List Window} (h : mainChildren? bytes = some (version, children)) {w : Window}
    (hw : w ∈ children) : w.bytes.length = bytes.length - w.offset := by
  rw [bytes_eq_drop_of_mem_mainChildren h hw, List.length_drop]

theorem Readable.exists_decode {bytes : List UInt8} {version : UInt32} {children : List Window}
    (h : Readable bytes version children) : ∃ m, decode bytes = .ok m := by
  obtain ⟨size, hsize⟩ := occurrences_eq_one_iff.mp h.size_eq
  obtain ⟨voxels, hvoxels⟩ := occurrences_pos_iff.mp h.voxels_pos
  obtain ⟨palette, hpalette⟩ := occurrences_pos_iff.mp h.palette_pos
  have hsel : Selected bytes version children size voxels palette :=
    ⟨h.children_eq, hsize, hvoxels, hpalette⟩
  have hall : ∀ w ∈ children, w.demand ≤ w.bytes.length := by
    intro w hw
    rw [length_bytes_of_mainChildren h.children_eq hw]
    exact h.demand_le w hw
  obtain ⟨m, hm, -⟩ := hsel.exists_model hall
  exact ⟨m, hm⟩

theorem exists_readable {bytes : List UInt8} {m : Model} (h : decode bytes = .ok m) :
    ∃ children, Readable bytes m.version children := by
  obtain ⟨children, size, voxels, palette, hsel, hall, -⟩ := decode_eq_ok_iff_selected.mp h
  refine ⟨children, hsel.children_eq, occurrences_eq_one_iff.mpr ⟨size, hsel.size_eq⟩,
    occurrences_pos_iff.mpr ⟨voxels, hsel.voxels_eq⟩,
    occurrences_pos_iff.mpr ⟨palette, hsel.palette_eq⟩, ?_⟩
  intro w hw
  rw [← length_bytes_of_mainChildren hsel.children_eq hw]
  exact hall w hw

/-- Nothing is read from a file whose main chunk has no or several children with the sides. -/
theorem exists_fault_of_size_ne {bytes : List UInt8} {version : UInt32} {children : List Window}
    (h : mainChildren? bytes = some (version, children))
    (hsize : occurrences Id.size children ≠ 1) : ∃ fault, decode bytes = .error fault := by
  cases hd : decode bytes with
  | error fault => exact ⟨fault, rfl⟩
  | ok m =>
    obtain ⟨children', hread⟩ := exists_readable hd
    have hsame := hread.children_eq.symm.trans h
    simp only [Option.some.injEq, Prod.mk.injEq] at hsame
    rw [hsame.2] at hread
    exact absurd hread.size_eq hsize

/-- A second child with the sides is always refused.  A second one with voxels, or with a
palette, is refused exactly when the file could not be read for another reason. -/
theorem single_of_decode_iff (bytes : List UInt8) :
    (∀ version children, mainChildren? bytes = some (version, children) →
      1 < occurrences Id.size children → ∃ fault, decode bytes = .error fault) ∧
    ((∀ m, decode bytes = .ok m → Single bytes) ↔
      ∀ version children, Readable bytes version children →
        occurrences Id.voxels children = 1 ∧ occurrences Id.palette children = 1) := by
  refine ⟨fun version children h hsize => exists_fault_of_size_ne h (by omega), ?_, ?_⟩
  · intro h version children hread
    obtain ⟨m, hm⟩ := hread.exists_decode
    obtain ⟨version', children', hchildren, -, hvoxels, hpalette⟩ := h m hm
    have hsame := hread.children_eq.symm.trans hchildren
    simp only [Option.some.injEq, Prod.mk.injEq] at hsame
    rw [hsame.2]
    exact ⟨hvoxels, hpalette⟩
  · intro h m hm
    obtain ⟨children, hread⟩ := exists_readable hm
    obtain ⟨hvoxels, hpalette⟩ := h _ _ hread
    exact ⟨m.version, children, hread.children_eq, hread.size_eq, hvoxels, hpalette⟩

theorem length_sizeId : Id.size.length = 4 := rfl

theorem length_voxelsId : Id.voxels.length = 4 := rfl

theorem length_paletteId : Id.palette.length = 4 := rfl

theorem length_mainId : Id.main.length = 4 := rfl

/-- Two children with voxels, each with a single one at another place. -/
def doubled : File :=
  let size := Chunk.leaf Id.size (wordBytes 2 ++ wordBytes 1 ++ wordBytes 1) length_sizeId
    (by decide)
  let first := Chunk.leaf Id.voxels (wordBytes 1 ++ [0, 0, 0, 1]) length_voxelsId (by decide)
  let second := Chunk.leaf Id.voxels (wordBytes 1 ++ [1, 0, 0, 1]) length_voxelsId (by decide)
  let palette := Chunk.leaf Id.palette ([255, 0, 0, 255] ++ List.replicate 1020 0) length_paletteId
    (by decide +kernel)
  let children := [size, first, second, palette]
  { version := 150
    main := ⟨Id.main, [], chunkBytes children, length_mainId, Nat.zero_le _, by decide +kernel⟩
    children
    more := []
    main_id := rfl
    children_eq := rfl }

theorem not_single_doubled :
    ∃ m, decode doubled.bytes = .ok m ∧ m.voxels = [⟨1, 0, 0, 1⟩] ∧ ¬Single doubled.bytes := by
  have hvoxels : (decode doubled.bytes).toOption.map Model.voxels = some [⟨1, 0, 0, 1⟩] := by
    decide +kernel
  have hcount : (mainChildren? doubled.bytes).map (fun r => occurrences Id.voxels r.2) =
      some 2 := by
    decide +kernel
  obtain ⟨m, hm, hmv⟩ := Option.map_eq_some_iff.mp hvoxels
  refine ⟨m, toOption_eq_some_iff.mp hm, hmv, ?_⟩
  intro h
  obtain ⟨version, children, hchildren, -, hone, -⟩ := h
  rw [hchildren, Option.map_some, Option.some.injEq, hone] at hcount
  exact absurd hcount (by decide)

end Vox
end VoxelCurve
