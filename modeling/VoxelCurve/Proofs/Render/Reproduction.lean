import VoxelCurve.Proofs.Grammar.File
import VoxelCurve.Proofs.Render.Saving
import VoxelCurve.Proofs.Render.Settings

/-!
Making a drawing again from its sidecar.

The sidecar holds the grammar and all that the drawing depends on.  Both survive their text, so
whoever reads the sidecar draws the same picture and encodes it as the same bytes.  The text of a
number is taken for granted to be read as this number again.
-/

namespace VoxelCurve

/-- Whether the bytes of a sidecar hold a grammar, and settings in which the defaults stand for
what is not recorded. -/
def Sidecar.Holds (depth : Nat) (bytes : List UInt8) (g : LSystem) (s : Settings) : Prop :=
  ∃ (metadata settings : Fields) (grammar : Value),
    Sidecar.read depth bytes = .ok (.object metadata) ∧
    metadata.get? "grammar" = some grammar ∧ LSystem.ofValue grammar = .of (.ok g) ∧
    metadata.get? "render" = some (.object settings) ∧
    Settings.defaults.withOverrides settings = .ok s

/-- Whether the sidecar that a tree has of a drawing holds its grammar, and settings with which the
machine makes the drawing again, byte by byte. -/
def Saved.Reproducible (saved : Saved) (g : LSystem) (m : Machine) (t : Tree) : Prop :=
  ∃ path sidecar drawing s r, saved.metadataPath? = some path ∧ t.read path = .ok sidecar ∧
    Sidecar.Holds m.readingDepth sidecar g s ∧ (g.render s m.compass).result = .ok r ∧
    Vox.encode .rgba r.canvas = .ok drawing ∧ t.read saved.voxPath = .ok drawing

/-- The numbers in the sidecar of a drawing. -/
def Sidecar.numbers (s : Settings) (rainbow : Number) (r : Rendering) : List Number :=
  [.int s.derivationLength, s.stepSize.val, s.angleIncrement.val, .int s.sizeX.val,
   .int s.sizeY.val, .int s.sizeZ.val, s.offsetX.val, s.offsetY.val, rainbow, .int r.numCommands,
   .int r.numVoxels, .int r.numColors, .float r.occupancyRatio, .int r.finalPosition.x,
   .int r.finalPosition.y]

theorem Json.legible_toValue {n : Number} (h : ReadsBack n.toValue) (depth : Nat) :
    Legible depth n.toValue := by
  cases n with
  | bool b => exact .bool
  | int n => exact .int h
  | float x => exact .float h

namespace LSystem

variable {g : LSystem} {s : Settings} {name : String} {rainbow : Number}
  (hname : g.name = .text name) (hrainbow : s.rainbow = rainbow.toValue)

include hname hrainbow in
/-- The sidecar of a drawing can be read back, if its numbers can. -/
theorem legible_sidecar {r : Rendering}
    (hnumbers : ∀ n ∈ Sidecar.numbers s rainbow r, Json.ReadsBack n.toValue) (createdAt : String)
    (voxPath : Path) (depth : Nat) :
    Json.Legible (depth + 3) (g.sidecar s r createdAt voxPath) := by
  simp only [Sidecar.numbers, List.forall_mem_cons] at hnumbers
  obtain ⟨hlength, hstep, hangle, hx, hy, hz, hoffsetX, hoffsetY, hcolored, hcommands, hvoxels,
    hcolors, hoccupancy, hpositionX, hpositionY, -⟩ := hnumbers
  -- what is left of the depth inside two objects
  have hsettings : ∀ f ∈ Sidecar.settings s.entries, Json.Legible (depth + 1) f.2 := by
    have hfields : Sidecar.settings s.entries =
        [("derivation_length", .int s.derivationLength), ("step_size", s.stepSize.val.toValue),
         ("angle_increment", s.angleIncrement.val.toValue), ("size_x", .int s.sizeX.val),
         ("size_y", .int s.sizeY.val), ("size_z", .int s.sizeZ.val),
         ("offset_x", s.offsetX.val.toValue), ("offset_y", s.offsetY.val.toValue),
         ("rainbow", s.rainbow)] := rfl
    rw [hfields, hrainbow]
    simp only [List.forall_mem_cons]
    exact ⟨.int hlength, Json.legible_toValue hstep _, Json.legible_toValue hangle _, .int hx,
      .int hy, .int hz, Json.legible_toValue hoffsetX _, Json.legible_toValue hoffsetY _,
      Json.legible_toValue hcolored _, fun _ h => nomatch h⟩
  have hstats : ∀ f ∈ Sidecar.stats r.stats, Json.Legible (depth + 1) f.2 := by
    have hfields : Sidecar.stats r.stats = r.stats := rfl
    have hposition : ∀ v ∈ [Value.int r.finalPosition.x, .int r.finalPosition.y],
        Json.Legible depth v := by
      simp only [List.forall_mem_cons]
      exact ⟨.int hpositionX, .int hpositionY, fun _ h => nomatch h⟩
    rw [hfields]
    simp only [Rendering.stats, List.forall_mem_cons]
    exact ⟨.int hcommands, .int hvoxels, .int hcolors, .float hoccupancy, .list hposition,
      fun _ h => nomatch h⟩
  have hstatNames : (Fields.names (Sidecar.stats r.stats)).Nodup :=
    show ["num_commands", "num_voxels", "num_colors", "occupancy_ratio", "final_position"].Nodup by
      decide
  have hsettingNames : (Fields.names (Sidecar.settings s.entries)).Nodup := by
    rw [Sidecar.names_settings]
    decide
  refine .object (show ["generator", "version", "created_at", "vox_file", "grammar", "render",
    "stats"].Nodup by decide) ?_
  simp only [List.forall_mem_cons]
  exact ⟨.text, .text, .text, .text, legible_toValue hname depth, .object hsettingNames hsettings,
    .object hstatNames hstats, fun _ h => nomatch h⟩

include hname hrainbow in
theorem holds_sidecarBytes {r : Rendering} {createdAt : String} {voxPath : Path} {depth : Nat}
    (hdepth : 3 ≤ depth) (hnumbers : ∀ n ∈ Sidecar.numbers s rainbow r, Json.ReadsBack n.toValue)
    (hencodable :
      (Json.printedPieces (g.sidecar s r createdAt voxPath)).all Text.isEncodable = true) :
    Sidecar.Holds depth (g.sidecarBytes s r createdAt voxPath) g s.reproduced := by
  obtain ⟨depth, rfl⟩ := Nat.exists_eq_add_of_le' hdepth
  have hlegible := legible_sidecar hname hrainbow hnumbers createdAt voxPath depth
  exact ⟨_, _, g.toValue, hlegible.readBytes hencodable, rfl, ofValue_toValue hname, rfl,
    s.withOverrides_settings⟩

/-- Whenever a drawing is saved with its sidecar, under a suffix of its own, this sidecar is enough
to make the drawing again.  It has three lists and objects in one another, and its reader has to go
as deep. -/
theorem renderToFile_reproducible (hname : g.name = .text name)
    (hrainbow : s.rainbow = rainbow.toValue) (hmeta : s.writeMetadata.isGiven = true)
    (output? : Option Path) {m : Machine} (hdepth : 3 ≤ m.readingDepth) (t : Tree) :
    (g.renderToFile s output? m).Ensures m t fun saved t' =>
      saved.voxPath.suffix ≠ ".json" →
      (∀ n ∈ Sidecar.numbers s rainbow saved.rendering, Json.ReadsBack n.toValue) →
      saved.Reproducible g m t' := by
  intro saved t' h hsuffix hnumbers
  obtain ⟨r, t₁, hrender, hsave⟩ := Script.returns_bind_iff.mp h
  obtain ⟨rfl, drawing, path, l, l', hdrawing, hwrites, hpath, hl, -, hl'⟩ :=
    files_of_suffix_ne hmeta hsave hsuffix
  have hdraw : t'.read saved.voxPath = .ok drawing := by
    rw [Tree.read, hl]
  have hread : t'.read path =
      .ok (g.sidecarBytes s saved.rendering m.time saved.voxPath) := by
    rw [Tree.read, hl']
  have hagain : (g.render s.reproduced m.compass).result = .ok saved.rendering :=
    (Settings.render_reproduced g s m.compass).trans hrender.result
  exact ⟨path, _, drawing, s.reproduced, saved.rendering, hpath, hread,
    holds_sidecarBytes hname hrainbow hdepth hnumbers (Json.writes_iff.mp hwrites).2, hagain,
    hdrawing, hdraw⟩

/-! ## A drawing with a corner -/

/-- A grammar whose one rule draws a corner and goes on from there. -/
def corner : LSystem :=
  ⟨.text "corner", [.subfigureA], .ofRules [⟨.subfigureA, [.drawRight, .draw]⟩]⟩

/-- One generation, on a canvas of two layers. -/
def plot : Settings :=
  { Settings.defaults with
    derivationLength := 1, stepSize := ⟨.float 2.5, by decide⟩
    sizeX := ⟨10, Nat.succ_pos _⟩, sizeY := ⟨7, Nat.succ_pos _⟩, sizeZ := ⟨2, Nat.succ_pos _⟩
    rainbow := .int 0, outputDir := ⟨.working, ["elsewhere"]⟩ }

theorem readsBack_numbers_corner {r : Rendering}
    (hr : (corner.render plot .twoWay).result = .ok r) :
    r.numVoxels = 7 ∧ ∀ n ∈ Sidecar.numbers plot (.int 0) r, Json.ReadsBack n.toValue := by
  have hfigures : (corner.render plot .twoWay).result.toOption.map (fun r =>
      (r.numCommands, r.numVoxels, r.numColors, r.finalPosition)) = some (2, 7, 1, ⟨9, 5⟩) := by
    decide +kernel
  rw [hr] at hfigures
  simp only [Except.toOption, Option.map_some, Option.some.injEq, Prod.mk.injEq] at hfigures
  obtain ⟨hcommands, hvoxels, hcolors, hposition⟩ := hfigures
  have hratio : r.occupancyRatio = 0.05 := by
    rw [Rendering.occupancyRatio, extent_of_result hr, hvoxels]
    decide +kernel
  have hstep : Json.chars 0 plot.stepSize.val.toValue = "2.5".toList := by decide +kernel
  have hangle : Json.chars 0 plot.angleIncrement.val.toValue =
      "1.5707963267948966".toList := by decide +kernel
  have hoccupancy : Json.chars 0 (Number.float 0.05).toValue = "0.05".toList := by decide +kernel
  refine ⟨hvoxels, ?_⟩
  simp only [Sidecar.numbers, List.forall_mem_cons, Json.ReadsBack, hcommands, hvoxels, hcolors,
    hposition, hratio]
  rw [hstep, hangle, hoccupancy]
  exact ⟨rfl, rfl, rfl, rfl, rfl, rfl, rfl, rfl, rfl, rfl, rfl, rfl, rfl, rfl, rfl,
    List.forall_mem_nil _⟩

/-- The corner is drawn, its numbers are read back, and the sidecar makes it again. -/
theorem renderToFile_reproducible_corner :
    ∃ saved t', (corner.renderToFile plot (some ⟨.working, ["a.vox"]⟩) .plotter).Returns .plotter
        (.empty "home") saved t' ∧
      saved.rendering.numVoxels = 7 ∧ saved.voxPath.suffix ≠ ".json" ∧
      (∀ n ∈ Sidecar.numbers plot (.int 0) saved.rendering, Json.ReadsBack n.toValue) ∧
      saved.Reproducible corner .plotter t' := by
  let p : Path := ⟨.working, ["a.vox"]⟩
  let q : Path := ⟨.working, ["a.json"]⟩
  let t : Tree := .empty "home"
  have hparent : t.locate p.parent = .ok (t.working, some .directory) :=
    Tree.locate_working (Tree.find?_empty "home")
  have hl : t.locate p = .ok (t.working.child "a.vox", none) :=
    Tree.locate_empty "home" (by decide +kernel)
  have hl' : t.locate q = .ok (t.working.child "a.json", none) :=
    Tree.locate_empty "home" (by decide +kernel)
  have hstorable : corner.isStorable plot .plotter p = true := by decide +kernel
  have hsidecar : p.sidecar = .ok q := by decide +kernel
  obtain ⟨r, t', hr, hreturns⟩ :=
    exists_returns_renderToFile rfl hstorable hsidecar hparent hparent hl hl'
  obtain ⟨hvoxels, hnumbers⟩ := readsBack_numbers_corner hr
  have hsuffix : p.suffix ≠ ".json" := by decide +kernel
  exact ⟨_, t', hreturns, hvoxels, hsuffix, hnumbers,
    renderToFile_reproducible rfl rfl rfl _ (by decide) t _ t' hreturns hsuffix hnumbers⟩

end LSystem
end VoxelCurve
