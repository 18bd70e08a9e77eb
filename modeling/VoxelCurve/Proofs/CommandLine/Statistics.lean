import VoxelCurve.Proofs.CommandLine.Inspection
import VoxelCurve.Proofs.Vox.Counts

/-!
What is said about the voxels and colors of a rendering.

A rendering counts the bytes of its canvas.  A file that is summarized is counted by the entries
that are read of it and by their slots.  `counts_agree` says that both come to the same, so the
lines of a run that renders, the sidecar that it leaves and the lines of a run that summarizes the
file never contradict each other.
-/

namespace VoxelCurve

open CommandLine

namespace Rendering

/-- What is said of a rendering once it is saved, in lines and in a sidecar. -/
structure Announces (r : Rendering) (voxels colors : Nat) : Prop where
  lines : ∀ saved : Saved, saved.rendering = r →
    (savedLines saved)[2]? = some ("  Voxels: " ++ Decimal.grouped voxels ++ " (" ++
      percent r.occupancyRatio ++ " occupancy)") ∧
    (savedLines saved)[3]? = some ("  Colors: " ++ toString colors)
  sidecar : ∀ (g : LSystem) s createdAt p, ∃ fields stats : Fields,
    g.sidecar s r createdAt p = .object fields ∧ fields.get? "stats" = some (.object stats) ∧
      stats.get? "num_voxels" = some (.int voxels) ∧ stats.get? "num_colors" = some (.int colors)

theorem announces (r : Rendering) : r.Announces r.numVoxels r.numColors := by
  refine ⟨?_, fun g s createdAt p => ?_⟩
  · rintro saved rfl
    exact ⟨rfl, rfl⟩
  · exact ⟨_, Sidecar.stats r.stats, rfl, rfl, rfl, rfl⟩

theorem numVoxels_eq (r : Rendering) : r.numVoxels = r.canvas.opaqueCells.length :=
  r.canvas.length_opaqueCells.symm

theorem numColors_eq (r : Rendering) : r.numColors = r.canvas.colors.length := by
  have hrecords : r.canvas.opaqueCells.map (·.2) = r.canvas.opaqueRecords.map (·.2) := by
    rw [Buffer.opaqueCells, List.map_map]
    rfl
  rw [Buffer.colors, hrecords]
  rfl

end Rendering

namespace CommandLine

/-- Whether a summary of a file says how many voxels and colors there are, wherever the file is
found and whichever machine prints the lines about it. -/
def Inspected (bytes : List UInt8) (voxels colors : Nat) : Prop :=
  ∀ (t : Tree) (m : Machine) (word : String) (q : Path) (model : Vox.Model), NamesFile word →
    t.read (Path.ofText word) = .ok bytes → Vox.decode bytes = .ok model →
    (Path.ofText word).sidecar = .ok q →
    (∀ line ∈ modelLines (Path.ofText word) model, m.prints line = true) →
    ∃ before after, (run t m ["inspect", word]).output =
      before ++ ("  Voxels: " ++ Decimal.grouped voxels ++ "\n  Colors: " ++ toString colors ++
        "\n") ++ after

theorem inspected_of_decode {bytes : List UInt8} {model : Vox.Model}
    (hm : Vox.decode bytes = .ok model) : Inspected bytes model.numVoxels model.numColors := by
  intro t m word q model' hword hfile hm' hq hprints
  obtain rfl := Except.ok.inj (hm.symm.trans hm')
  obtain ⟨more, houtput⟩ := output_run_inspect hfile hm hq m hword hprints
  let before := String.join
    [(Path.ofText word).text, "\n", "  Version: ", toString model.version.toNat, "\n",
     "  Size: ", toString model.width.toNat, " x ", toString model.depth.toNat, " x ",
     toString model.height.toNat, "\n"]
  refine ⟨before, more, houtput.trans ?_⟩
  have hcolors : "\n" ++ "  Colors: " = "\n  Colors: " := rfl
  simp only [summary, before, ← hcolors, Vox.Model.numVoxels, String.join_cons, String.join_nil,
    String.append_assoc, String.append_empty]

end CommandLine

namespace Rendering

/-- Whenever the model of a rendering can be made, it is written and read back, and its voxels and
colors are as many as the rendering has itself, as it is said to have when it is saved, and as a
summary of the file says. -/
theorem counts_agree {r : Rendering} {m : Vox.Model} (h : r.model = .ok m) :
    m.numVoxels = r.numVoxels ∧ m.numColors = r.numColors ∧
      r.Announces r.numVoxels r.numColors ∧
      ∃ bytes m', m.encode = .ok bytes ∧ Vox.decode bytes = .ok m' ∧
        m'.numVoxels = r.numVoxels ∧ m'.numColors = r.numColors ∧
        Inspected bytes r.numVoxels r.numColors := by
  obtain ⟨hs, rfl⟩ := Vox.scanCanvas_eq_ok_iff.mp h
  have hvoxels : r.canvas.model.numVoxels = r.numVoxels := by
    rw [r.numVoxels_eq]
    exact List.length_map _
  have hcolors : r.canvas.model.numColors = r.numColors := by
    rw [r.numColors_eq]
    exact hs.numColors_model
  have hdecode := r.canvas.model.decode_fileBytes hs.fits_model
  have hinspected := inspected_of_decode hdecode
  rw [hvoxels, hcolors] at hinspected
  exact ⟨hvoxels, hcolors, r.announces, _, _, Vox.Model.encode_eq_fileBytes _ hs.fits_model,
    hdecode, hvoxels, hcolors, hinspected⟩

theorem counts_agree_interleaved :
    let r : Rendering := ⟨.text "interleaved", Vox.interleaved, 5, ⟨0, 0⟩⟩
    ∃ m, r.model = .ok m ∧ m.numVoxels = r.numVoxels ∧ m.numColors = r.numColors ∧
      r.Announces r.numVoxels r.numColors ∧
      ∃ bytes m', m.encode = .ok bytes ∧ Vox.decode bytes = .ok m' ∧
        m'.numVoxels = r.numVoxels ∧ m'.numColors = r.numColors ∧
        Inspected bytes r.numVoxels r.numColors := by
  intro r
  have hs : Vox.interleaved.Scannable :=
    ⟨by decide, by decide, by decide, by decide, by decide +kernel, by decide +kernel⟩
  have h : r.model = .ok Vox.interleaved.model := Vox.scanCanvas_eq_ok_iff.mpr ⟨hs, rfl⟩
  exact ⟨_, h, counts_agree h⟩

end Rendering
end VoxelCurve
