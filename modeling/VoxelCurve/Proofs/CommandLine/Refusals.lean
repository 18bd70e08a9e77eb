import VoxelCurve.Proofs.CommandLine.Inspection
import VoxelCurve.Proofs.Render.Saving

/-!
Runs that are refused.

A drawing is made, and its model built, before the first byte is written; what is written behind
that is never refused.  So wherever the refusal comes from, from the grammar, from a setting, from
the canvas, from a command of the drawing or from the format of the file, all that the run has done
by then is to make directories, and the files are the same as before.
-/

namespace VoxelCurve

open CommandLine (CommandScript Contents GrammarChoice)

namespace LSystem

variable (g : LSystem) (s : Settings) (output? : Option Path) (createdAt : String) (m : Machine)

theorem spares_choosePath : (g.choosePath s output?).Spares := by
  cases output? with
  | some p => exact (Script.silent_pure p).spares
  | none => exact (Script.spares_makeDirectory _).bind fun _ => (Script.silent_of _).spares

/-- Once the drawing is written, only the path of its sidecar can be at fault. -/
theorem not_refused_saveSidecar (r : Rendering) (voxPath : Path) (e : RenderFault)
    (h : (g.saveSidecar s r createdAt voxPath).result = .error e) :
    ¬CommandLine.isRefusedDrawing e = true := by
  unfold saveSidecar at h
  split at h
  · rw [Script.result_bind, Script.result_of] at h
    unfold Path.sidecar at h
    split at h
    · cases h
    · cases h
      exact Bool.false_ne_true
  · cases h

theorem cautious_saveRendering (r : Rendering) :
    (g.saveRendering s output? createdAt r).Cautious fun e =>
      CommandLine.isRefusedDrawing e = true := by
  refine (g.spares_choosePath s output?).bind_cautious fun voxPath => ?_
  refine (Script.spares_makeDirectory _).bind_cautious fun _ => ?_
  refine (Script.silent_of _).spares.bind_cautious fun bytes => ?_
  -- from here on something is written
  refine Script.cautious_of_never fun e he => ?_
  simp only [Script.result_bind] at he
  cases hsidecar : (g.saveSidecar s r createdAt voxPath).result with
  | ok q? =>
    rw [hsidecar] at he
    cases he
  | error fault =>
    rw [hsidecar] at he
    obtain rfl := Except.error.inj he
    exact g.not_refused_saveSidecar s createdAt r voxPath fault hsidecar

theorem cautious_renderToFile :
    (g.renderToFile s output? m).Cautious fun e => CommandLine.isRefusedDrawing e = true :=
  (g.silent_render s m.compass).spares.bind_cautious (g.cautious_saveRendering s output? m.time)

end LSystem

namespace CommandLine

/-- What the program takes for a refusal. -/
def IsRefusal (fault : CommandFault) : Prop :=
  fault.status? = some 2

theorem isRefusedDrawing_of_isRefusal {fault : RenderFault} (h : IsRefusal (.render fault)) :
    isRefusedDrawing fault = true := by
  change (if isRefusedDrawing fault then some 2 else none) = some 2 at h
  split at h
  · assumption
  · cases h

/-- No action fails in a way that is taken for a refusal. -/
theorem not_isRefusal_file (e : FileError) : ¬IsRefusal (.file e) := by
  show (if e.fault.isOfSystem then some 1 else none) ≠ some 2
  split <;> decide

section Scripts

variable (m : Machine) (contents : Contents)

theorem silent_loadGrammar (p : Path) : (loadGrammar m contents p).Silent := by
  unfold loadGrammar
  split
  · exact Script.silent_of_steps_eq_nil rfl
  · split
    · exact Script.silent_of_steps_eq_nil rfl
    · exact Script.silent_ofReading _

theorem silent_source (c : GrammarChoice) : (c.source m contents).Silent := by
  unfold GrammarChoice.source
  split
  · split <;> exact Script.silent_of_steps_eq_nil rfl
  · exact (silent_loadGrammar _ _ _).bind fun _ => Script.silent_pure _
  · exact (Script.silent_ofReading _).bind fun _ => Script.silent_pure _
  · exact Script.silent_of_steps_eq_nil rfl

theorem silent_resolve (c : GrammarChoice) : (c.resolve m contents).Silent := by
  unfold GrammarChoice.resolve
  split
  · exact Script.silent_of_steps_eq_nil rfl
  · exact (silent_source m contents c).bind fun _ => Script.silent_pure _

theorem spares_sayAll (lines : List String) : (sayAll lines).Spares := by
  rw [sayAll_eq]
  exact List.forall_mem_map.mpr fun _ _ => trivial

theorem silent_objectField (fields : Fields) (name : String) :
    (objectField fields name).Silent := by
  apply Script.silent_of_steps_eq_nil
  unfold objectField
  split <;> rfl

theorem spares_sayMetadata (v : Value) : (sayMetadata v).Spares := by
  unfold sayMetadata
  split
  · exact (silent_objectField _ _).spares.bind fun grammar => (Script.spares_say _).bind fun _ =>
      (silent_objectField _ _).spares.bind fun settings => Script.spares_say _
  · exact (Script.silent_of_steps_eq_nil rfl).spares

theorem spares_inspectSidecar (p : Path) : (inspectSidecar m contents p).Spares := by
  unfold inspectSidecar
  split
  · split <;> exact (Script.silent_of_steps_eq_nil rfl).spares
  · split
    · exact spares_sayMetadata _
    · exact (Script.silent_of_steps_eq_nil rfl).spares
    · exact (Script.silent_log _ _ _).spares

theorem spares_inspect (p : Path) : (inspect m contents p).Spares := by
  refine (Script.silent_of _).spares.bind fun bytes => (Script.silent_of _).spares.bind fun _ => ?_
  refine (spares_sayAll _).bind fun _ => (Script.silent_of _).spares.bind fun q => ?_
  exact spares_inspectSidecar m contents q

theorem cautious_render (r : RenderArguments) : (render m contents r).Cautious IsRefusal := by
  refine (silent_resolve m contents _).spares.bind_cautious fun ⟨g, options⟩ => ?_
  refine (Script.silent_of _).spares.bind_cautious fun s => ?_
  refine (Script.silent_log _ _ _).spares.bind_cautious fun _ => ?_
  have hsave : ((g.renderToFile s (r.output?.map Path.ofText) m).mapError
      CommandFault.render).Cautious IsRefusal := by
    refine Script.Cautious.mapError fun e he hrefused => ?_
    exact g.cautious_renderToFile s _ m e he (isRefusedDrawing_of_isRefusal hrefused)
  refine hsave.bind_of_never fun saved e he => ?_
  rw [sayAll_eq] at he
  cases he

theorem cautious_script (c : Command) : (c.script m contents).Cautious IsRefusal := by
  cases c with
  | render r => exact cautious_render m contents r
  | derive c length =>
    refine Script.Spares.cautious ?_
    exact (silent_resolve m contents c).spares.bind fun _ =>
      (Script.silent_of _).spares.bind fun _ => Script.spares_say _
  | presets => exact (spares_sayAll _).cautious
  | inspect path => exact (spares_inspect m contents _).cautious

end Scripts

theorem exists_isRefusal_of_endingOf {fault? : Option CommandFault}
    (h : endingOf fault? = .exit 2) : ∃ fault, fault? = some fault ∧ IsRefusal fault := by
  cases fault? with
  | none => cases h
  | some fault =>
    refine ⟨fault, rfl, ?_⟩
    rw [endingOf] at h
    split at h
    · next status hstatus =>
      cases h
      exact hstatus
    · cases h

/-- A refusal is the result of a script whose steps were all taken. -/
theorem of_failure?_of_isRefusal {p : Performance} {result : Except CommandFault Unit}
    {fault : CommandFault} (h : failure? p result = some fault) (hrefused : IsRefusal fault) :
    p.fault? = none ∧ result = .error fault := by
  unfold failure? at h
  split at h
  · next e _ =>
    cases h
    exact absurd hrefused (not_isRefusal_file e)
  · cases h
    cases hrefused
  · next hfault =>
    cases h
    exact ⟨hfault, rfl⟩
  · cases h

/-- A run that ends with the status of refusals was performed to its end. -/
theorem fails_of_ending {t : Tree} {m : Machine} {words : List String}
    (h : (run t m words).ending = .exit 2) :
    ∃ r fault, request words = .ok r ∧ IsRefusal fault ∧
      (r.command.script m t.read).Fails m t fault (run t m words).tree := by
  cases hr : request words with
  | error refusal =>
    rw [run, hr] at h
    cases h
  | ok r =>
    have htree : (run t m words).tree =
        (Step.perform m t (r.command.script m t.read).steps).tree := by
      rw [run, hr]
    have hending : endingOf (failure? (Step.perform m t (r.command.script m t.read).steps)
        (r.command.script m t.read).result) = .exit 2 := by
      rwa [run, hr] at h
    obtain ⟨fault, hfault, hrefused⟩ := exists_isRefusal_of_endingOf hending
    obtain ⟨hnone, hresult⟩ := of_failure?_of_isRefusal hfault hrefused
    exact ⟨r, fault, rfl, hrefused, ⟨hnone, htree.symm⟩, hresult⟩

/-- A drawing that cannot be made or saved by the rules of the canvas and the format, and a run
that ends with the status of refusals, leave all files as they were and make no new ones. -/
theorem sameFiles_of_refused :
    (∀ (g : LSystem) (s : Settings) (output? : Option Path) (m : Machine) (t t' : Tree)
      (fault : RenderFault), (g.renderToFile s output? m).Fails m t fault t' →
        isRefusedDrawing fault = true → t.SameFiles t') ∧
    ∀ (t : Tree) (m : Machine) (words : List String),
      (run t m words).ending = .exit 2 → t.SameFiles (run t m words).tree := by
  constructor
  · intro g s output? m t t' fault h hrefused
    exact ((g.cautious_renderToFile s output? m).addsDirectories h hrefused).sameFiles
  · intro t m words h
    obtain ⟨r, fault, hr, hrefused, hfails⟩ := fails_of_ending h
    exact ((cautious_script m t.read r.command).addsDirectories hfails hrefused).sameFiles

/-- A canvas so wide that its middle is beyond the coordinates of a file. -/
def broad : Settings :=
  { LSystem.column with sizeX := ⟨600, Nat.succ_pos _⟩ }

/-- A drawing that the format has no coordinates for is refused after a directory was made for it,
and a rule without an arrow before anything was done.  The files that were there are there. -/
theorem sameFiles_of_refused_broad :
    let t := withSidecar [0x7B]
    let words := ["render", "--axiom", "F", "--rule", "F"]
    t.read (Path.ofText "a.vox") = .ok blankFile ∧
      (∃ t', (LSystem.oneStroke.renderToFile broad (some ⟨.working, ["new", "b.vox"]⟩)
          .plotter).Fails .plotter t (.encode .coordinateTooLarge) t' ∧
        t'.nodes.length = 4 ∧ t.SameFiles t') ∧
      (run t .plotter words).ending = .exit 2 ∧ t.SameFiles (run t .plotter words).tree := by
  intro t words
  obtain ⟨hfile, -⟩ := read_withSidecar [0x7B]
  have hencode : (LSystem.oneStroke.render broad .twoWay).result.toOption.any (fun r =>
      r.model.bind Vox.Model.encode = .error .coordinateTooLarge) = true := by decide +kernel
  obtain ⟨r, hr, hfault⟩ : ∃ r, (LSystem.oneStroke.render broad .twoWay).result = .ok r ∧
      r.model.bind Vox.Model.encode = .error .coordinateTooLarge := by
    cases hr : (LSystem.oneStroke.render broad .twoWay).result with
    | error fault =>
      rw [hr] at hencode
      cases hencode
    | ok r =>
      rw [hr] at hencode
      exact ⟨r, rfl, of_decide_eq_true hencode⟩
  have hfree : t.locate ⟨.working, ["new"]⟩ = .ok (t.working.child "new", none) := by
    have hfind : t.find? (t.working.child "new") = none := by
      rw [find?_withSidecar]
      rfl
    rw [Tree.locate_name (find?_working_withSidecar _) (by decide +kernel), hfind]
  have hmake : (Script.makeDirectory ⟨.working, ["new"]⟩ : Script RenderFault Unit).Returns
      .plotter t () (t.put (t.working.child "new") .directory) :=
    Script.returns_makeDirectory_iff.mpr (Tree.makeDirectory_of_free _ hfree)
  have hrefused : (Script.of ((r.model.bind Vox.Model.encode).mapError RenderFault.encode)).Fails
      .plotter (t.put (t.working.child "new") .directory) (.encode .coordinateTooLarge)
      (t.put (t.working.child "new") .directory) := by
    refine Script.fails_of_error ?_
    rw [hfault]
    rfl
  have hrendered :
      (LSystem.oneStroke.render broad Machine.plotter.compass).Returns .plotter t r t :=
    LSystem.returns_render_iff.mpr ⟨hr, rfl⟩
  have hchosen : (LSystem.oneStroke.choosePath broad (some ⟨.working, ["new", "b.vox"]⟩)).Returns
      .plotter t ⟨.working, ["new", "b.vox"]⟩ t := Script.returns_pure_iff.mpr ⟨rfl, rfl⟩
  have hfails : (LSystem.oneStroke.renderToFile broad (some ⟨.working, ["new", "b.vox"]⟩)
      .plotter).Fails .plotter t (.encode .coordinateTooLarge) _ :=
    hrendered.bind_fails (hchosen.bind_fails (hmake.bind_fails (hrefused.bind _)))
  have hrun : (run t .plotter words).ending = .exit 2 := by decide +kernel
  exact ⟨hfile, ⟨_, hfails, by decide +kernel, sameFiles_of_refused.1 _ _ _ _ _ _ _ hfails rfl⟩,
    hrun, sameFiles_of_refused.2 _ _ _ hrun⟩

end CommandLine
end VoxelCurve
