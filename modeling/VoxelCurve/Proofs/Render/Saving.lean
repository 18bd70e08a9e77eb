import VoxelCurve.Proofs.Files.Name
import VoxelCurve.Proofs.Files.Path
import VoxelCurve.Proofs.Files.Tree
import VoxelCurve.Proofs.Render.Painted
import VoxelCurve.Proofs.Render.Sidecar
import VoxelCurve.Proofs.Vox.RoundTrip
import VoxelCurve.Render.Saving

/-!
What is left of a rendering that was saved.

The sidecar is written after the drawing, beside it and with another suffix.  As long as the suffix
of the drawing is not the one of sidecars, the files tell the two names apart, and both files are
there in the end.  If it is, the sidecar is written over the drawing, and the run returns all the
same (`renderToFile_kept_iff`).
-/

namespace VoxelCurve

/-- Whether a tree holds both files of a rendering: its model at one location, and at another one
its sidecar. -/
def Saved.Kept (saved : Saved) (sidecar : List UInt8) (t : Tree) : Prop :=
  ∃ l bytes m, t.locate saved.voxPath = .ok (l, some (.file bytes)) ∧
    saved.rendering.model = .ok m ∧ Vox.decode bytes = .ok m ∧
    ∃ p l', saved.metadataPath? = some p ∧ l' ≠ l ∧
      t.locate p = .ok (l', some (.file sidecar))

/-! ## The paths of the two files -/

theorem Path.withSuffix?_of_sidecar {p q : Path} (h : p.sidecar = .ok q) :
    p.withSuffix? ".json" = some q := by
  unfold sidecar at h
  split at h
  · next r hr =>
    obtain rfl := Except.ok.inj h
    exact hr
  · cases h

/-- The files tell a sidecar from the file it stands beside, unless this has its suffix. -/
theorem Path.names_of_sidecar {p q : Path} (h : p.sidecar = .ok q)
    (husable : p.names.all FileName.isUsable = true) (hsuffix : p.suffix ≠ ".json") :
    q.root = p.root ∧ ∃ init a b, p.names = init ++ [a] ∧ q.names = init ++ [b] ∧
      FileName.readBack b ≠ ".." ∧ FileName.readBack a ≠ FileName.readBack b := by
  obtain ⟨name, hname, hnames, rfl⟩ := exists_of_withSuffix? (withSuffix?_of_sidecar h)
  have hletters : ∀ c ∈ ".json".toList, c.toNat < 0x80 := by simp
  have hwhole :
      String.ofList ((splitSuffix name.toList).1 ++ (splitSuffix name.toList).2) = name := by
    rw [splitSuffix_append, String.ofList_toList]
  have hchanged : String.ofList (splitSuffix name.toList).1 ++ ".json" =
      String.ofList ((splitSuffix name.toList).1 ++ ".json".toList) := by
    rw [String.ofList_append, String.ofList_toList]
  have hplain : ∀ c ∈ (splitSuffix name.toList).2.head?, Text.half? c = none := by
    intro c hc
    rw [head?_suffix name.toList c hc]
    exact FileName.half?_of_letter (by decide)
  have hbytes : FileName.isUsable
      (String.ofList ((splitSuffix name.toList).1 ++ (splitSuffix name.toList).2)) = true := by
    rw [hwhole]
    rw [hnames] at husable
    exact List.all_eq_true.mp husable name (List.mem_append_right _ List.mem_cons_self)
  refine ⟨rfl, p.names.dropLast, name, _, hnames, rfl, ?_, ?_⟩
  · rw [hchanged]
    exact FileName.readBack_append_ne hletters (by decide)
  · intro hsame
    rw [hchanged] at hsame
    have hext : (splitSuffix name.toList).2 = ".json".toList :=
      FileName.eq_of_readBack_append hletters hplain hbytes (by rwa [hwhole])
    refine hsuffix ?_
    rw [suffix, hname, Option.getD_some, hext, String.ofList_toList]

theorem Path.sidecar_eq_self {p q : Path} (h : p.sidecar = .ok q) (hsuffix : p.suffix = ".json") :
    q = p := by
  have hq := withSuffix?_of_sidecar h
  obtain ⟨name, hname, -⟩ := exists_of_withSuffix? hq
  have hp := withSuffix?_suffix hname
  rw [hsuffix, hq] at hp
  exact Option.some.inj hp

/-- A file that is given its name does not have the suffix of sidecars. -/
theorem Settings.suffix_outputPath_ne {s : Settings} {name : String} {p : Path}
    (hp : s.outputPath name = .ok p) : p.suffix ≠ ".json" := by
  obtain ⟨cs, hcs⟩ : ∃ cs : List Char,
      p = s.outputDir.join (String.ofList (cs ++ ".vox".toList)) := by
    refine ⟨(toString name ++ "_" ++ toString s.derivationLength).toList, ?_⟩
    rw [String.ofList_append, String.ofList_toList, String.ofList_toList]
    unfold outputPath at hp
    split at hp
    · exact (Except.ok.inj hp).symm
    · cases hp
  obtain ⟨u, hu⟩ := Path.exists_name?_ofText cs (t := ".vox".toList) (by decide) (by decide)
  intro h
  rw [hcs, Path.suffix, Path.name?_join hu, Option.getD_some, String.toList_ofList] at h
  have hext := congrArg String.toList h
  rw [String.toList_ofList] at hext
  have hwhole := congrArg List.getLast? (Path.splitSuffix_append (u ++ ".vox".toList))
  have hn : ".json".toList.getLast? = some 'n' := by decide
  have hx : ".vox".toList.getLast? = some 'x' := by decide
  rw [hext, List.getLast?_append, List.getLast?_append, hn, hx] at hwhole
  exact absurd (Option.some.inj hwhole) (by decide)

namespace LSystem

/-- The bytes of the sidecar of a rendering. -/
def sidecarBytes (g : LSystem) (s : Settings) (r : Rendering) (createdAt : String)
    (voxPath : Path) : List UInt8 :=
  (Json.printedPieces (g.sidecar s r createdAt voxPath)).flatMap Text.utf8

/-- A sidecar starts with a brace and is no drawing. -/
theorem exists_decode_sidecarBytes (g : LSystem) (s : Settings) (r : Rendering)
    (createdAt : String) (voxPath : Path) :
    ∃ fault, Vox.decode (g.sidecarBytes s r createdAt voxPath) = .error fault := by
  obtain ⟨rest, hrest⟩ : ∃ rest, g.sidecarBytes s r createdAt voxPath = 0x7b :: rest :=
    ⟨_, rfl⟩
  have hsignature : ¬(0x7b :: rest).take 4 = Vox.signature := by
    intro h
    exact absurd (List.cons.inj h).1 (by decide)
  refine ⟨.badSignature ((0x7b :: rest).take 4), ?_⟩
  rw [hrest, Vox.decode, if_neg hsignature]

section Returns

variable {g : LSystem} {s : Settings} {output? : Option Path} {createdAt : String} {m : Machine}
  {r : Rendering} {saved : Saved} {t t' : Tree}

theorem silent_render (g : LSystem) (s : Settings) (compass : Compass) :
    (g.render s compass).Silent := by
  refine (Script.silent_log _ _ _).bind fun _ => (Script.silent_of _).bind fun t => ?_
  refine (Script.silent_log _ _ _).bind fun _ => (Script.silent_of _).bind fun r => ?_
  exact (Script.silent_log _ _ _).bind fun _ => Script.silent_pure r

theorem returns_render_iff {compass : Compass} :
    (g.render s compass).Returns m t r t' ↔ (g.render s compass).result = .ok r ∧ t' = t :=
  (silent_render g s compass).returns_iff

theorem returns_choosePath {p : Path} (h : (g.choosePath s output?).Returns m t p t') :
    output? = some p ∨ output? = none ∧ s.outputPath g.name.printed = .ok p := by
  cases output? with
  | some p' =>
    left
    rw [(Script.returns_pure_iff.mp h).1]
  | none =>
    right
    simp only [choosePath, Settings.preparePath, Script.returns_bind_iff,
      Script.returns_of_iff, mapError_eq_ok_iff] at h
    obtain ⟨-, t₁, -, hp, -⟩ := h
    exact ⟨rfl, hp⟩

/-- The suffix of sidecars has to be asked for. -/
theorem suffix_of_choosePath {p : Path} (h : (g.choosePath s output?).Returns m t p t') :
    p.suffix = ".json" ↔ ∃ p, output? = some p ∧ p.suffix = ".json" := by
  rcases returns_choosePath h with hp | ⟨hnone, hp⟩
  · constructor
    · intro hsuffix
      exact ⟨p, hp, hsuffix⟩
    · rintro ⟨p', hp', hsuffix⟩
      rwa [Option.some.inj (hp.symm.trans hp')]
  · constructor
    · intro hsuffix
      exact absurd hsuffix (Settings.suffix_outputPath_ne hp)
    · rintro ⟨p', hp', -⟩
      rw [hnone] at hp'
      cases hp'

variable (hmeta : s.writeMetadata.isGiven = true)

include hmeta

/-- Saving returns if the drawing has an encoding, the sidecar can be written, and there is a place
for both, the drawing first. -/
theorem returns_saveRendering_iff :
    (g.saveRendering s output? createdAt r).Returns m t saved t' ↔
      ∃ p t₀ q bytes t₁ t₂ t₃, saved = ⟨r, p, some q⟩ ∧
        (g.choosePath s output?).Returns m t p t₀ ∧ p.sidecar = .ok q ∧
        r.model.bind Vox.Model.encode = .ok bytes ∧
        Json.Writes m (g.sidecar s r createdAt p) ∧
        t₀.makeDirectory m p.parent = (t₁, none) ∧ t₁.write p bytes = .ok t₂ ∧
        t₂.makeDirectory m q.parent = (t₃, none) ∧
        t₃.write q (g.sidecarBytes s r createdAt p) = .ok t' := by
  simp only [saveRendering, saveSidecar, hmeta, if_true, Script.returns_bind_iff,
    Sidecar.returns_save_iff, Script.returns_makeDirectory_iff, Script.returns_of_iff,
    Script.returns_write_iff, Script.returns_log_iff, Script.returns_pure_iff, mapError_eq_ok_iff]
  constructor
  · rintro ⟨p, t₀, hpath, _, t₁, hmake, bytes, _, ⟨hbytes, rfl⟩, _, t₂, hwrite, _, _, rfl, _, _,
      ⟨q, _, ⟨hsidecar, rfl⟩, _, _, ⟨hwrites, t₃, hmake', hwrite'⟩, rfl, rfl⟩, rfl, rfl⟩
    exact ⟨p, t₀, q, bytes, _, _, t₃, rfl, hpath, hsidecar, hbytes, hwrites, hmake, hwrite,
      hmake', hwrite'⟩
  · rintro ⟨p, t₀, q, bytes, t₁, t₂, t₃, rfl, hpath, hsidecar, hbytes, hwrites, hmake, hwrite,
      hmake', hwrite'⟩
    exact ⟨p, t₀, hpath, (), t₁, hmake, bytes, t₁, ⟨hbytes, rfl⟩, (), t₂, hwrite, (), t₂, rfl,
      some q, t', ⟨q, t₂, ⟨hsidecar, rfl⟩, (), t', ⟨hwrites, t₃, hmake', hwrite'⟩, rfl, rfl⟩,
      rfl, rfl⟩

/-- A drawing is saved in directories that are there, under names that nothing has yet. -/
theorem exists_returns_saveRendering {p q : Path} {l l' dir dir' : Location} {bytes : List UInt8}
    (hsidecar : p.sidecar = .ok q) (hbytes : r.model.bind Vox.Model.encode = .ok bytes)
    (hwrites : Json.Writes m (g.sidecar s r createdAt p))
    (hparent : t.locate p.parent = .ok (dir, some .directory))
    (hparent' : t.locate q.parent = .ok (dir', some .directory))
    (hl : t.locate p = .ok (l, none)) (hl' : t.locate q = .ok (l', none)) :
    ∃ t', (g.saveRendering s (some p) createdAt r).Returns m t ⟨r, p, some q⟩ t' := by
  have hnone : ∀ {p l}, t.locate p = .ok (l, none) → t.find? l = none :=
    fun h => (Tree.locate_eq_ok_iff.mp h).2.2
  have hfree : t.find? l ≠ some .directory := by
    rw [hnone hl]
    exact Option.some_ne_none _ |>.symm
  have hways := Tree.ways_put hfree bytes
  have hdirectory : (t.put l (.file bytes)).locate q.parent = .ok (dir', some .directory) := by
    rw [hways.locate hparent', hways.directory _ (Tree.locate_eq_ok_iff.mp hparent').2.2]
  -- the sidecar may be written where the drawing has just been
  have hplace : (t.put l (.file bytes)).find? l' ≠ some .directory := by
    rw [Tree.find?_put (Tree.ne_root_of_find? hfree)]
    split
    · exact fun h => Node.noConfusion (Option.some.inj h)
    · rw [hnone hl']
      exact Option.some_ne_none _ |>.symm
  exact ⟨_, (returns_saveRendering_iff hmeta).mpr
    ⟨p, t, q, bytes, t, _, _, rfl, Script.returns_pure_iff.mpr ⟨rfl, rfl⟩, hsidecar, hbytes,
      hwrites, Tree.makeDirectory_of_locate m hparent,
      Tree.write_of_locate hl (fun h => nomatch h) bytes,
      Tree.makeDirectory_of_locate m hdirectory,
      Tree.write_of_locate (hways.locate hl') hplace _⟩⟩

variable (h : (g.saveRendering s output? createdAt r).Returns m t saved t')

include h

/-- Under two suffixes both files are there, the drawing and its sidecar. -/
theorem files_of_suffix_ne (hsuffix : saved.voxPath.suffix ≠ ".json") :
    saved.rendering = r ∧ ∃ bytes q l l', r.model.bind Vox.Model.encode = .ok bytes ∧
      Json.Writes m (g.sidecar s r createdAt saved.voxPath) ∧ saved.metadataPath? = some q ∧
      t'.locate saved.voxPath = .ok (l, some (.file bytes)) ∧ l' ≠ l ∧
      t'.locate q = .ok (l', some (.file (g.sidecarBytes s r createdAt saved.voxPath))) := by
  obtain ⟨p, t₀, q, bytes, t₁, t₂, t₃, rfl, -, hsidecar, hbytes, hwrites, -, hwrite, hmake,
    hwrite'⟩ := (returns_saveRendering_iff hmeta).mp h
  obtain ⟨l₁, node?, hl₁, -⟩ := Tree.exists_locate_of_write hwrite
  have husable := (Tree.locate_eq_ok_iff.mp hl₁).1.1
  obtain ⟨hroot, init, a, b, ha, hb, hdots, hne⟩ := Path.names_of_sidecar hsidecar husable hsuffix
  have hkeeps := (Tree.addsDirectories_makeDirectory hmake).toKeeps
  obtain ⟨l, l', hl, hapart, hl'⟩ :=
    Tree.locate_write_write hwrite hkeeps hwrite' hroot ha hb hdots hne
  exact ⟨rfl, bytes, q, l, l', hbytes, hwrites, rfl, hl, hapart, hl'⟩

theorem kept_of_suffix_ne (hsuffix : saved.voxPath.suffix ≠ ".json") :
    saved.Kept (g.sidecarBytes s r createdAt saved.voxPath) t' := by
  obtain ⟨rfl, bytes, q, l, l', hbytes, -, hq, hl, hapart, hl'⟩ :=
    files_of_suffix_ne hmeta h hsuffix
  obtain ⟨m, hmodel, hencode⟩ := bind_eq_ok_iff.mp hbytes
  exact ⟨l, bytes, m, hl, hmodel, Vox.Model.decode_of_encode hencode, q, l', hq, hapart, hl'⟩

/-- With the suffix of sidecars there is a single path, and what is left there is the sidecar,
which cannot be read as a drawing. -/
theorem overwritten_of_suffix_eq (hsuffix : saved.voxPath.suffix = ".json") :
    saved.metadataPath? = some saved.voxPath ∧
      ∃ bytes fault, t'.read saved.voxPath = .ok bytes ∧ Vox.decode bytes = .error fault := by
  obtain ⟨p, t₀, q, bytes, t₁, t₂, t₃, rfl, -, hsidecar, -, -, -, -, -, hwrite⟩ :=
    (returns_saveRendering_iff hmeta).mp h
  have hsame : q = p := Path.sidecar_eq_self hsidecar hsuffix
  obtain ⟨l, node?, hl, hways, hfind⟩ := Tree.of_write hwrite
  rw [hsame] at hl
  have hfile : t'.locate p = .ok (l, some (.file (g.sidecarBytes s r createdAt p))) := by
    rw [hways.locate hl, hfind, if_pos rfl]
  obtain ⟨fault, hdecode⟩ := g.exists_decode_sidecarBytes s r createdAt p
  refine ⟨congrArg some hsame, g.sidecarBytes s r createdAt p, fault, ?_, hdecode⟩
  rw [Tree.read, hfile]

theorem kept_iff :
    saved.Kept (g.sidecarBytes s r createdAt saved.voxPath) t' ↔
      saved.voxPath.suffix ≠ ".json" := by
  constructor
  · rintro ⟨l, bytes, m, hl, -, -, p, l', hp, hapart, hl'⟩ hsuffix
    obtain ⟨hsame, -⟩ := overwritten_of_suffix_eq hmeta h hsuffix
    rw [hp] at hsame
    rw [Option.some.inj hsame, hl] at hl'
    exact hapart (Prod.mk.inj (Except.ok.inj hl')).1.symm
  · exact kept_of_suffix_ne hmeta h

end Returns

theorem kept_iff_of_renderToFile {g : LSystem} {s : Settings} {output? : Option Path}
    {m : Machine} {saved : Saved} {t t' : Tree} (hmeta : s.writeMetadata.isGiven = true)
    (h : (g.renderToFile s output? m).Returns m t saved t') :
    saved.Kept (g.sidecarBytes s saved.rendering m.time saved.voxPath) t' ↔
      ¬∃ p, output? = some p ∧ p.suffix = ".json" := by
  obtain ⟨r, t₁, hrender, hsave⟩ := Script.returns_bind_iff.mp h
  obtain ⟨-, rfl⟩ := returns_render_iff.mp hrender
  have hkept := kept_iff hmeta hsave
  obtain ⟨p, t₀, q, _, _, _, _, rfl, hpath, -⟩ := (returns_saveRendering_iff hmeta).mp hsave
  exact hkept.trans (not_congr (suffix_of_choosePath hpath))

/-- Both files of a rendering are there whenever a run with a sidecar returns, unless it is told
to save the drawing at a path that has the suffix of sidecars.  Then they never are. -/
theorem renderToFile_kept_iff (g : LSystem) (s : Settings) (output? : Option Path) (m : Machine)
    (t : Tree) :
    (∀ saved t', (g.renderToFile s output? m).Returns m t saved t' →
      s.writeMetadata.isGiven = true →
        saved.Kept (g.sidecarBytes s saved.rendering m.time saved.voxPath) t') ↔
    (s.writeMetadata.isGiven = true → (∃ p, output? = some p ∧ p.suffix = ".json") →
      ∀ saved t', ¬(g.renderToFile s output? m).Returns m t saved t') := by
  constructor
  · intro hall hmeta hjson saved t' h
    exact (kept_iff_of_renderToFile hmeta h).mp (hall saved t' h hmeta) hjson
  · intro hnot saved t' h hmeta
    exact (kept_iff_of_renderToFile hmeta h).mpr fun hjson => hnot hmeta hjson saved t' h

/-! ## A drawing in a directory without files -/

/-- Whether a drawing can be made and encoded, and its sidecar be written. -/
def isStorable (g : LSystem) (s : Settings) (m : Machine) (p : Path) : Bool :=
  (g.render s m.compass).result.toOption.any fun r =>
    (r.model.bind Vox.Model.encode).toOption.isSome &&
      (Json.pieces 0 (g.sidecar s r m.time p)).all fun piece => (piece.fault? m).isNone

/-- Such a drawing is saved under names that nothing has yet. -/
theorem exists_returns_renderToFile {g : LSystem} {s : Settings} {m : Machine} {t : Tree}
    {p q : Path} {l l' dir dir' : Location} (hmeta : s.writeMetadata.isGiven = true)
    (hstorable : g.isStorable s m p = true) (hsidecar : p.sidecar = .ok q)
    (hparent : t.locate p.parent = .ok (dir, some .directory))
    (hparent' : t.locate q.parent = .ok (dir', some .directory))
    (hl : t.locate p = .ok (l, none)) (hl' : t.locate q = .ok (l', none)) :
    ∃ r t', (g.render s m.compass).result = .ok r ∧
      (g.renderToFile s (some p) m).Returns m t ⟨r, p, some q⟩ t' := by
  unfold isStorable at hstorable
  cases hr : (g.render s m.compass).result with
  | error fault =>
    rw [hr] at hstorable
    cases hstorable
  | ok r =>
    rw [hr] at hstorable
    obtain ⟨hencode, hpieces⟩ := Bool.and_eq_true_iff.mp hstorable
    obtain ⟨bytes, hbytes⟩ := Option.isSome_iff_exists.mp hencode
    have hwrites : Json.Writes m (g.sidecar s r m.time p) :=
      fun piece hpiece => Option.isNone_iff_eq_none.mp (List.all_eq_true.mp hpieces piece hpiece)
    obtain ⟨t', hsaved⟩ := exists_returns_saveRendering hmeta hsidecar
      (toOption_eq_some_iff.mp hbytes) hwrites hparent hparent' hl hl'
    exact ⟨r, t', rfl,
      Script.returns_bind_iff.mpr ⟨r, t, returns_render_iff.mpr ⟨hr, rfl⟩, hsaved⟩⟩

end LSystem

/-- A machine that draws along the axes. -/
def Machine.plotter : Machine :=
  { Machine.narrow with compass := .twoWay }

namespace LSystem

/-- The stroke is drawn and its file written, and then the sidecar is written over it. -/
theorem not_kept_oneStroke :
    ∃ saved t', (oneStroke.renderToFile column (some ⟨.working, ["a.json"]⟩) .plotter).Returns
      .plotter (.empty "home") saved t' ∧
      ¬saved.Kept
        (oneStroke.sidecarBytes column saved.rendering Machine.plotter.time saved.voxPath) t' := by
  let p : Path := ⟨.working, ["a.json"]⟩
  let t : Tree := .empty "home"
  have hparent : t.locate p.parent = .ok (t.working, some .directory) :=
    Tree.locate_working (Tree.find?_empty "home")
  have hl : t.locate p = .ok (t.working.child "a.json", none) :=
    Tree.locate_empty "home" (by decide +kernel)
  obtain ⟨r, t', -, hreturns⟩ := exists_returns_renderToFile (g := oneStroke) (s := column)
    (m := .plotter) rfl (by decide +kernel) (show p.sidecar = .ok p by decide +kernel) hparent
    hparent hl hl
  have hjson : ∃ p', some p = some p' ∧ p'.suffix = ".json" := ⟨p, rfl, by decide⟩
  exact ⟨_, t', hreturns,
    fun hkept => (kept_iff_of_renderToFile rfl hreturns).mp hkept hjson⟩

end LSystem
end VoxelCurve
