import VoxelCurve.CommandLine.Program
import VoxelCurve.Proofs.CommandLine.Operand
import VoxelCurve.Proofs.Files.Tree
import VoxelCurve.Proofs.Run.Script
import VoxelCurve.Proofs.Vox.RoundTrip

/-!
What a run that summarizes a file says.

The lines about the model come first and depend on nothing but the path and the model.  Then the
sidecar beside the file is looked at, if there is one.  Bytes that are no text or no document are
passed over, but a document is taken for an object whose parts are objects, and where it is none,
or where its fields are nothing that the output can encode, the run does not end well.
`run_inspect_summarized_iff` says for which sidecars it does.
-/

namespace VoxelCurve
namespace CommandLine

/-- The path of a file and the lines about its model. -/
def summary (p : Path) (m : Vox.Model) : String :=
  String.join
    [p.text, "\n",
     "  Version: ", toString m.version.toNat, "\n",
     "  Size: ", toString m.width.toNat, " x ", toString m.depth.toNat, " x ",
       toString m.height.toNat, "\n",
     "  Voxels: ", Decimal.grouped m.voxels.length, "\n",
     "  Colors: ", toString m.numColors, "\n"]

/-- Whether a run says what a model is and ends well.  More may be said behind that. -/
structure Summarized (c : Conclusion) (p : Path) (m : Vox.Model) : Prop where
  output : ∃ more, c.output = summary p m ++ more
  ending : c.ending = .exit 0

/-- What is said of a drawing by the grammar and the settings in its sidecar. -/
def metadataLines (grammar settings : Fields) : List String :=
  ["  Grammar: " ++ printedField grammar "name" ++ " (axiom " ++ printedField grammar "axiom" ++
     ")",
   "  Generations: " ++ printedField settings "derivation_length"]

/-- Whether a document is an object, so are the parts of it that are looked at, if they are there,
and what is said of them can be printed. -/
def Describable (m : Machine) (v : Value) : Prop :=
  ∃ fields grammar settings : Fields, v = .object fields ∧
    (fields.get? "grammar").getD (.object []) = .object grammar ∧
    (fields.get? "render").getD (.object []) = .object settings ∧
    ∀ line ∈ metadataLines grammar settings, m.prints line = true

/-- What may be found where the sidecar of a file is looked for. -/
def Tolerated (m : Machine) (found : Except FileError (List UInt8)) : Prop :=
  match found with
  | .error e => e.fault ≠ .nameTooLong
  | .ok bytes =>
    match Sidecar.read m.readingDepth bytes with
    | .error fault => fault ≠ .tooDeep
    | .ok v => Describable m v

/-! ## The lines -/

theorem sayAll_eq (lines : List String) : sayAll lines = ⟨lines.map .say, .ok ()⟩ := by
  induction lines with
  | nil => rfl
  | cons line rest ih =>
    rw [sayAll, ih]
    rfl

theorem output_modelLines (p : Path) (m : Vox.Model) :
    Step.output ((modelLines p m).map .say) = summary p m := by
  have hsides : " x ".intercalate (m.sides.map toString) = toString m.width.toNat ++ " x " ++
      toString m.depth.toNat ++ " x " ++ toString m.height.toNat := rfl
  rw [Step.output_say]
  simp only [modelLines, hsides, Vox.Model.numVoxels, summary, List.map_cons, List.map_nil,
    String.join_cons, String.join_nil, String.append_assoc, String.append_empty]

/-! ## The sidecar -/

section Sidecar

variable {m : Machine} {t t' : Tree} {u : Unit}

theorem returns_objectField_iff {fields inner : Fields} {name : String} :
    (objectField fields name).Returns m t inner t' ↔
      (fields.get? name).getD (.object []) = .object inner ∧ t' = t := by
  rw [objectField]
  cases (fields.get? name).getD (.object []) with
  | object given =>
    rw [Value.object.injEq, eq_comm]
    exact Script.returns_pure_iff
  | null | bool | int | float | text | list =>
    constructor
    · rintro ⟨-, h⟩
      cases h
    · rintro ⟨h, -⟩
      cases h

theorem returns_sayMetadata_iff {v : Value} :
    (sayMetadata v).Returns m t u t' ↔ Describable m v ∧ t' = t := by
  cases v with
  | object fields =>
    simp only [sayMetadata, Script.returns_bind_iff, returns_objectField_iff,
      Script.returns_say_iff, Describable, metadataLines, List.forall_mem_cons]
    constructor
    · rintro ⟨grammar, _, ⟨hgrammar, rfl⟩, -, _, ⟨hname, rfl⟩, settings, _, ⟨hsettings, rfl⟩,
        hlength, rfl⟩
      exact ⟨⟨fields, grammar, settings, rfl, hgrammar, hsettings, hname, hlength,
        List.forall_mem_nil _⟩, rfl⟩
    · rintro ⟨⟨_, grammar, settings, hfields, hgrammar, hsettings, hname, hlength, -⟩, rfl⟩
      cases hfields
      exact ⟨grammar, t', ⟨hgrammar, rfl⟩, (), t', ⟨hname, rfl⟩, settings, t', ⟨hsettings, rfl⟩,
        hlength, rfl⟩
  | null | bool | int | float | text | list =>
    constructor
    · rintro ⟨-, h⟩
      cases h
    · rintro ⟨⟨_, _, _, h, -⟩, -⟩
      cases h

theorem returns_inspectSidecar_iff {p : Path} (hdirectory : t.isDirectory p = false) :
    (inspectSidecar m t.read p).Returns m t u t' ↔ Tolerated m (t.read p) ∧ t' = t := by
  have hdone : (.done () : CommandScript Unit).Returns m t u t' ↔ t' = t :=
    Script.returns_pure_iff.trans (and_iff_right rfl)
  have hfail : ∀ fault, ¬(.fail fault : CommandScript Unit).Returns m t u t' :=
    fun _ h => nomatch h.result
  unfold inspectSidecar Tolerated
  cases hread : t.read p with
  | error e =>
    have hfault := Tree.mem_pathFaults_of_read hread hdirectory
    obtain ⟨fault, path⟩ := e
    simp only [Tree.pathFaults, List.mem_cons, List.not_mem_nil, or_false] at hfault
    rcases hfault with rfl | rfl | rfl | rfl | rfl <;> simp [hdone, hfail]
  | ok bytes =>
    cases hsidecar : Sidecar.read m.readingDepth bytes with
    | ok v =>
      simp only [hsidecar]
      exact returns_sayMetadata_iff
    | error fault =>
      simp only [hsidecar]
      cases fault <;> simp [Script.returns_log_iff, hfail]

end Sidecar

/-! ## The run -/

theorem status?_ne_zero (fault : CommandFault) : fault.status? ≠ some 0 := by
  unfold CommandFault.status?
  split
  all_goals first
    | decide
    | split <;> decide

theorem endingOf_eq_exit_zero_iff {fault? : Option CommandFault} :
    endingOf fault? = .exit 0 ↔ fault? = none := by
  cases fault? with
  | none => exact ⟨fun _ => rfl, fun _ => rfl⟩
  | some fault =>
    constructor
    · intro h
      rw [endingOf] at h
      split at h
      · next status hs =>
        cases h
        exact absurd hs (status?_ne_zero fault)
      · cases h
    · intro h
      cases h

section Run

variable {m : Machine} {t t' : Tree} {words : List String} {r : Request}

/-- A run ends well exactly if its words are a request that is carried out to its end. -/
theorem ending_eq_exit_zero_iff :
    (run t m words).ending = .exit 0 ↔
      ∃ r t', request words = .ok r ∧ (r.command.script m t.read).Returns m t () t' := by
  cases hr : request words with
  | error refusal =>
    rw [run, hr]
    constructor
    · intro h
      cases h
    · rintro ⟨r, t', h, -⟩
      cases h
  | ok r =>
    have hending : (run t m words).ending =
        endingOf (failure? (Step.perform m t (r.command.script m t.read).steps)
          (r.command.script m t.read).result) := by
      rw [run, hr]
    rw [hending, endingOf_eq_exit_zero_iff]
    constructor
    · intro h
      unfold failure? at h
      split at h
      · cases h
      · cases h
      · cases h
      · next hfault hresult => exact ⟨r, _, rfl, ⟨hfault, rfl⟩, hresult⟩
    · rintro ⟨r', t', hrequest, ⟨hfault, -⟩, hresult⟩
      obtain rfl := Except.ok.inj hrequest
      simp only [failure?, hfault, hresult]

/-- A request that is carried out to a fault ends the run with it. -/
theorem ending_of_fails (hr : request words = .ok r) {fault : CommandFault}
    (h : (r.command.script m t.read).Fails m t fault t') :
    (run t m words).ending = endingOf (some fault) := by
  rw [run, hr]
  show endingOf (failure? (Step.perform m t (r.command.script m t.read).steps)
    (r.command.script m t.read).result) = _
  simp only [failure?, h.completes.fault?, h.result]

end Run

theorem inspect_eq {m : Machine} {contents : Contents} {p q : Path} {bytes : List UInt8}
    {model : Vox.Model} (hfile : contents p = .ok bytes) (hm : Vox.decode bytes = .ok model)
    (hq : p.sidecar = .ok q) :
    inspect m contents p = ⟨(modelLines p model).map .say ++ (inspectSidecar m contents q).steps,
      (inspectSidecar m contents q).result⟩ := by
  have hof : ∀ {ε α β : Type} {f : ε → CommandFault} (a : α) (next : α → CommandScript β),
      (Script.of ((Except.ok a).mapError f) >>= next) = next a := fun _ _ => rfl
  simp only [inspect, hfile, hm, hq, hof, sayAll_eq]
  rfl

section File

variable {t t' : Tree} {word : String} {bytes : List UInt8} {model : Vox.Model} {q : Path}
  (hfile : t.read (Path.ofText word) = .ok bytes) (hm : Vox.decode bytes = .ok model)
  (hq : (Path.ofText word).sidecar = .ok q) (m : Machine)

include hfile hm hq

theorem returns_inspect_iff :
    (inspect m t.read (Path.ofText word)).Returns m t () t' ↔
      (∀ line ∈ modelLines (Path.ofText word) model, m.prints line = true) ∧
        (inspectSidecar m t.read q).Returns m t () t' := by
  rw [inspect_eq hfile hm hq]
  constructor
  · rintro ⟨hcompletes, hresult⟩
    obtain ⟨t₁, hlines, hsidecar⟩ := Step.completes_append.mp hcompletes
    obtain ⟨hprints, rfl⟩ := Step.completes_say.mp hlines
    exact ⟨hprints, hsidecar, hresult⟩
  · rintro ⟨hprints, hsidecar, hresult⟩
    exact ⟨Step.completes_append.mpr ⟨t, Step.completes_say.mpr ⟨hprints, rfl⟩, hsidecar⟩, hresult⟩

/-- Whatever the sidecar is, the summary comes before it. -/
theorem output_run_inspect (hword : NamesFile word)
    (hprints : ∀ line ∈ modelLines (Path.ofText word) model, m.prints line = true) :
    ∃ more, (run t m ["inspect", word]).output = summary (Path.ofText word) model ++ more := by
  have hr := request_inspect_eq_ok_iff.mpr ⟨hword, rfl⟩
  have hscript : Command.script m t.read (.inspect word) = _ := inspect_eq hfile hm hq
  have hlines : Step.Completes m t ((modelLines (Path.ofText word) model).map .say) t :=
    Step.completes_say.mpr ⟨hprints, rfl⟩
  refine ⟨Step.output (Step.perform m t (inspectSidecar m t.read q).steps).taken, ?_⟩
  rw [run, hr]
  show Step.output (Step.perform m t (Command.script m t.read (.inspect word)).steps).taken = _
  rw [hscript, Step.taken_append hlines, Step.output_append, output_modelLines]

/-- A file that can be read is summarized exactly when the word on the command line stands for a
file, the lines about it can be printed, and what is found at the path of its sidecar can be passed
over or is an object whose parts are objects and can be told of. -/
theorem run_inspect_summarized_iff (hdirectory : t.isDirectory q = false) :
    (NamesFile word → (∀ line ∈ modelLines (Path.ofText word) model, m.prints line = true) →
      ∃ more, (run t m ["inspect", word]).output = summary (Path.ofText word) model ++ more) ∧
    (Summarized (run t m ["inspect", word]) (Path.ofText word) model ↔
      NamesFile word ∧ (∀ line ∈ modelLines (Path.ofText word) model, m.prints line = true) ∧
        Tolerated m (t.read q)) := by
  refine ⟨output_run_inspect hfile hm hq m, ?_, ?_⟩
  · rintro ⟨-, hending⟩
    obtain ⟨r, t', hr, hreturns⟩ := ending_eq_exit_zero_iff.mp hending
    obtain ⟨hword, rfl⟩ := request_inspect_eq_ok_iff.mp hr
    obtain ⟨hprints, hsidecar⟩ := (returns_inspect_iff hfile hm hq m).mp hreturns
    exact ⟨hword, hprints, ((returns_inspectSidecar_iff hdirectory).mp hsidecar).1⟩
  · rintro ⟨hword, hprints, htolerated⟩
    have hsidecar := (returns_inspectSidecar_iff (u := ()) hdirectory).mpr ⟨htolerated, rfl⟩
    have hreturns := (returns_inspect_iff hfile hm hq m).mpr ⟨hprints, hsidecar⟩
    have hr := request_inspect_eq_ok_iff.mpr ⟨hword, rfl⟩
    exact ⟨output_run_inspect hfile hm hq m hword hprints,
      ending_eq_exit_zero_iff.mpr ⟨_, t, hr, hreturns⟩⟩

end File

/-! ## Two sidecars -/

def blankModel : Vox.Model :=
  ⟨1, 1, 1, [], (Vector.replicate 256 (Rgba.ofBytes 0 0 0 0)).set 0 (Rgba.ofBytes 255 0 0 255), 150⟩

def blankFile : List UInt8 :=
  blankModel.encode.toOption.getD []

theorem decode_blankFile : Vox.decode blankFile = .ok blankModel := by
  have hsome : blankModel.encode.toOption.isSome = true := by decide +kernel
  obtain ⟨bytes, hbytes⟩ := Option.isSome_iff_exists.mp hsome
  have hfile : blankFile = bytes := by rw [blankFile, hbytes, Option.getD_some]
  rw [hfile]
  exact Vox.Model.decode_of_encode (toOption_eq_some_iff.mp hbytes)

/-- A directory with this file and another one beside it. -/
def withSidecar (sidecar : List UInt8) : Tree :=
  let t := Tree.empty "home"
  (t.put (t.working.child "a.vox") (.file blankFile)).put (t.working.child "a.json")
    (.file sidecar)

theorem find?_withSidecar (sidecar : List UInt8) (l : Location) :
    (withSidecar sidecar).find? l =
      if l = (Tree.empty "home").working.child "a.json" then some (.file sidecar)
      else if l = (Tree.empty "home").working.child "a.vox" then some (.file blankFile)
      else (Tree.empty "home").find? l := by
  rw [withSidecar, Tree.find?_put (by decide), Tree.find?_put (by decide)]

theorem find?_working_withSidecar (sidecar : List UInt8) :
    (withSidecar sidecar).find? (withSidecar sidecar).working = some .directory := by
  rw [find?_withSidecar]
  rfl

theorem read_withSidecar (sidecar : List UInt8) :
    (withSidecar sidecar).read (Path.ofText "a.vox") = .ok blankFile ∧
      (withSidecar sidecar).read ⟨.working, ["a.json"]⟩ = .ok sidecar := by
  have hworking := find?_working_withSidecar sidecar
  have hpath : Path.ofText "a.vox" = ⟨.working, ["a.vox"]⟩ := by decide +kernel
  rw [hpath]
  constructor
  · refine Tree.read_of_find? hworking (by decide +kernel) ?_
    rw [find?_withSidecar]
    rfl
  · refine Tree.read_of_find? hworking (by decide +kernel) ?_
    rw [find?_withSidecar]
    rfl

theorem sidecar_vox : (Path.ofText "a.vox").sidecar = .ok ⟨.working, ["a.json"]⟩ := by
  have hpath : (Path.ofText "a.vox").withSuffix? ".json" = some ⟨.working, ["a.json"]⟩ := by
    decide +kernel
  rw [Path.sidecar, hpath]

/-- A sidecar that breaks off behind its first brace is passed over. -/
theorem run_inspect_summarized_broken :
    (withSidecar [0x7B]).read (Path.ofText "a.vox") = .ok blankFile ∧
      Vox.decode blankFile = .ok blankModel ∧
      (Path.ofText "a.vox").sidecar = .ok ⟨.working, ["a.json"]⟩ ∧
      (withSidecar [0x7B]).isDirectory ⟨.working, ["a.json"]⟩ = false ∧
      Summarized (run (withSidecar [0x7B]) .narrow ["inspect", "a.vox"]) (Path.ofText "a.vox")
        blankModel := by
  obtain ⟨hfile, hjson⟩ := read_withSidecar [0x7B]
  have hdirectory := Tree.isDirectory_of_read hjson
  have hprints : ∀ line ∈ modelLines (Path.ofText "a.vox") blankModel,
      Machine.narrow.prints line = true := by decide +kernel
  have htolerated : Tolerated .narrow ((withSidecar [0x7B]).read ⟨.working, ["a.json"]⟩) := by
    rw [hjson]
    show Json.ReadFault.malformed ≠ .tooDeep
    decide
  refine ⟨hfile, decode_blankFile, sidecar_vox, hdirectory, ?_⟩
  exact (run_inspect_summarized_iff hfile decode_blankFile sidecar_vox .narrow hdirectory).2.mpr
    ⟨namesFile_of_head?_ne (by decide), hprints, htolerated⟩

/-- An empty list is a document, and no object. -/
theorem not_summarized_list :
    (withSidecar [0x5B, 0x5D]).read (Path.ofText "a.vox") = .ok blankFile ∧
      Vox.decode blankFile = .ok blankModel ∧
      (Path.ofText "a.vox").sidecar = .ok ⟨.working, ["a.json"]⟩ ∧
      (withSidecar [0x5B, 0x5D]).isDirectory ⟨.working, ["a.json"]⟩ = false ∧
      NamesFile "a.vox" ∧
      (run (withSidecar [0x5B, 0x5D]) .narrow ["inspect", "a.vox"]).ending = .escaped .notObject ∧
      ∀ m, ¬Summarized (run (withSidecar [0x5B, 0x5D]) m ["inspect", "a.vox"])
        (Path.ofText "a.vox") blankModel := by
  obtain ⟨hfile, hjson⟩ := read_withSidecar [0x5B, 0x5D]
  have hdirectory := Tree.isDirectory_of_read hjson
  have hword : NamesFile "a.vox" := namesFile_of_head?_ne (by decide)
  have hprints : ∀ line ∈ modelLines (Path.ofText "a.vox") blankModel,
      Machine.narrow.prints line = true := by decide +kernel
  have hsidecar : inspectSidecar .narrow (withSidecar [0x5B, 0x5D]).read
      ⟨.working, ["a.json"]⟩ = .fail .notObject := by
    rw [inspectSidecar, hjson]
    rfl
  have hscript : Command.script .narrow (withSidecar [0x5B, 0x5D]).read (.inspect "a.vox") = _ :=
    inspect_eq hfile decode_blankFile sidecar_vox
  refine ⟨hfile, decode_blankFile, sidecar_vox, hdirectory, hword, ?_, fun m h => ?_⟩
  · have hr := request_inspect_eq_ok_iff.mpr ⟨hword, rfl⟩
    have hfails : (Command.script .narrow (withSidecar [0x5B, 0x5D]).read
        (.inspect "a.vox")).Fails .narrow (withSidecar [0x5B, 0x5D]) .notObject
          (withSidecar [0x5B, 0x5D]) := by
      rw [hscript, hsidecar]
      refine ⟨?_, rfl⟩
      show Step.Completes _ _ ((modelLines (Path.ofText "a.vox") blankModel).map .say ++ []) _
      rw [List.append_nil]
      exact Step.completes_say.mpr ⟨hprints, rfl⟩
    exact ending_of_fails hr hfails
  · obtain ⟨-, -, htolerated⟩ :=
      (run_inspect_summarized_iff hfile decode_blankFile sidecar_vox m hdirectory).2.mp h
    rw [hjson] at htolerated
    -- with no stack left the list is too deep, and with some it is read
    cases hdepth : m.readingDepth with
    | zero =>
      have hread : Sidecar.read m.readingDepth [0x5B, 0x5D] = .error .tooDeep := by
        rw [hdepth]
        rfl
      rw [Tolerated, hread] at htolerated
      exact htolerated rfl
    | succ depth =>
      have hread : Sidecar.read m.readingDepth [0x5B, 0x5D] = .ok (.list []) := by
        rw [hdepth]
        rfl
      rw [Tolerated, hread] at htolerated
      obtain ⟨_, _, _, h, -⟩ := htolerated
      cases h

end CommandLine
end VoxelCurve
