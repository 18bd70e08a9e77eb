import VoxelCurve.Proofs.Decimal.Integer
import VoxelCurve.Proofs.Files.Path
import VoxelCurve.Proofs.Run.Script
import VoxelCurve.Render.Saving

/-!
The names that drawings are saved under.

A drawing that is given no file of its own is saved under the name of its grammar, an underscore
and the number of generations.  Names may hold underscores, digits and dots themselves, so what was
put together is taken apart from its end: digits hold no underscore, so the last one is where the
name ends, and the suffix holds no dot but its own, so the sidecar is named like the drawing up to
there.  A number of generations with too many digits has no name at all.
-/

namespace VoxelCurve

theorem notMem_toDigits {c : Char} (hc : c.isDigit = false) (n : Nat) :
    c ∉ Nat.toDigits 10 n := by
  intro h
  rw [Decimal.toDigits_isDigit n c h] at hc
  cases hc

/-- What stands behind the last mark is known. -/
theorem eq_of_append_cons_eq {α : Type} {a : α} {xs ys ds es : List α} (hds : a ∉ ds)
    (hes : a ∉ es) (h : xs ++ a :: ds = ys ++ a :: es) : xs = ys ∧ ds = es := by
  have hnil : ∀ {ds es mid : List α}, a ∉ ds → a :: ds = mid ++ a :: es → mid = [] := by
    intro ds es mid hds h
    cases mid with
    | nil => rfl
    | cons b mid =>
      rw [List.cons_append] at h
      exact absurd ((List.cons.inj h).2 ▸ List.mem_append_right mid List.mem_cons_self) hds
  rcases List.append_eq_append_iff.mp h with ⟨mid, rfl, hmid⟩ | ⟨mid, rfl, hmid⟩
  · obtain rfl := hnil hds hmid
    exact ⟨(List.append_nil xs).symm, (List.cons.inj hmid).2⟩
  · obtain rfl := hnil hes hmid
    exact ⟨List.append_nil ys, (List.cons.inj hmid).2.symm⟩

namespace Settings

/-- The name of a drawing without its suffix. -/
def stem (s : Settings) (name : String) : String :=
  name ++ "_" ++ toString s.derivationLength

variable {s s' : Settings} {name name' : String}

theorem toList_stem (s : Settings) (name : String) :
    (s.stem name).toList = name.toList ++ '_' :: Nat.toDigits 10 s.derivationLength := by
  simp [stem]

theorem stem_eq_iff :
    s.stem name = s'.stem name' ↔ name = name' ∧ s.derivationLength = s'.derivationLength := by
  have hmark : ∀ n : Nat, '_' ∉ Nat.toDigits 10 n := notMem_toDigits (by decide)
  constructor
  · intro h
    have hlist := congrArg String.toList h
    rw [toList_stem, toList_stem] at hlist
    obtain ⟨hname, hdigits⟩ := eq_of_append_cons_eq (hmark _) (hmark _) hlist
    have hnumber := congrArg (fun digits => Nat.ofDigitChars 10 digits 0) hdigits
    exact ⟨String.toList_inj.mp hname, by simpa using hnumber⟩
  · rintro ⟨rfl, hlength⟩
    rw [stem, stem, hlength]

/-- The file with this suffix in the directory of the settings. -/
def file (s : Settings) (name suffix : String) : Path :=
  { s.outputDir with names := s.outputDir.names ++ [s.stem name ++ suffix] }

theorem file_eq_iff {suffix : String} (hdirectory : s.outputDir = s'.outputDir) :
    s.file name suffix = s'.file name' suffix ↔
      name = name' ∧ s.derivationLength = s'.derivationLength := by
  rw [← stem_eq_iff, file, file, hdirectory]
  simp [String.ext_iff]

theorem file_ne (hdirectory : s.outputDir = s'.outputDir) :
    s.file name ".vox" ≠ s'.file name' ".json" := by
  intro h
  rw [file, file, hdirectory] at h
  have hlast := congrArg (fun p : Path => (p.names.getLast?.getD "").toList.getLast?) h
  simp at hlast

theorem sidecar_file (s : Settings) : (s.file name ".vox").sidecar = .ok (s.file name ".json") := by
  have hsplit : Path.splitSuffix (s.stem name ++ ".vox").toList =
      ((s.stem name).toList, ".vox".toList) := by
    rw [String.toList_append]
    exact Path.splitSuffix_of_notMem (by simp [toList_stem]) (by decide) (by decide)
  have hlast : (s.file name ".vox").name? = some (s.stem name ++ ".vox") :=
    List.getLast?_concat
  rw [Path.sidecar, Path.withSuffix?, hlast, Option.map_some]
  simp only [hsplit, String.ofList_toList]
  simp [file]

section Paths

variable (h : '/' ∉ name.toList)

include h

theorem outputPath_eq (s : Settings) :
    s.outputPath name =
      if Value.isWritable s.derivationLength then .ok (s.file name ".vox")
      else .error .unwritable := by
  have hslash : '/' ∉ (s.stem name ++ ".vox").toList := by
    have hdigits : '/' ∉ Nat.toDigits 10 s.derivationLength := notMem_toDigits (by decide) _
    simp [toList_stem, h, hdigits]
  have hname : Path.isName (s.stem name ++ ".vox").toList = true := by
    refine Path.isName_of_length ?_
    simp
  have hjoin : s.outputDir.join (s.stem name ++ ".vox") = s.file name ".vox" :=
    Path.join_of_notMem s.outputDir hname hslash
  rw [← hjoin]
  rfl

theorem result_preparePath (s : Settings) :
    (s.preparePath name).result =
      if Value.isWritable s.derivationLength then .ok (s.file name ".vox")
      else .error (.length .unwritable) := by
  have hpath := outputPath_eq h s
  generalize Value.isWritable s.derivationLength = writable at hpath ⊢
  rw [preparePath, Script.result_bind, hpath]
  cases writable <;> rfl

theorem result_prepareSidecarPath (s : Settings) :
    (s.prepareSidecarPath name).result =
      if Value.isWritable s.derivationLength then .ok (s.file name ".json")
      else .error (.length .unwritable) := by
  have hpath := result_preparePath h s
  generalize Value.isWritable s.derivationLength = writable at hpath ⊢
  rw [prepareSidecarPath, Script.result_bind, hpath]
  cases writable with
  | true => exact sidecar_file s
  | false => rfl

end Paths

/-- There is no path for a number of generations of too many digits.  Where there is one, two
drawings are saved in the same file of a directory only if they have the same name and the same
number of generations.  Their sidecars are the same then and only then too, and no sidecar is in the
place of a drawing. -/
theorem defaultPaths_apart (hdirectory : s.outputDir = s'.outputDir) (h : '/' ∉ name.toList)
    (h' : '/' ∉ name'.toList) :
    (Value.isWritable s.derivationLength = false →
      (s.preparePath name).result = .error (.length .unwritable) ∧
        (s.prepareSidecarPath name).result = .error (.length .unwritable)) ∧
    (Value.isWritable s.derivationLength = true → Value.isWritable s'.derivationLength = true →
      ∃ drawing drawing' sidecar sidecar',
        ((s.preparePath name).result = .ok drawing ∧
          (s.prepareSidecarPath name).result = .ok sidecar) ∧
        ((s'.preparePath name').result = .ok drawing' ∧
          (s'.prepareSidecarPath name').result = .ok sidecar') ∧
        (drawing = drawing' ↔ name = name' ∧ s.derivationLength = s'.derivationLength) ∧
        (sidecar = sidecar' ↔ name = name' ∧ s.derivationLength = s'.derivationLength) ∧
        drawing ≠ sidecar' ∧ sidecar ≠ drawing') := by
  rw [result_preparePath h, result_prepareSidecarPath h, result_preparePath h',
    result_prepareSidecarPath h']
  constructor
  · intro hlength
    rw [hlength]
    exact ⟨rfl, rfl⟩
  · intro hlength hlength'
    rw [hlength, hlength']
    have hsidecar : s.file name ".json" ≠ s'.file name' ".vox" := (file_ne hdirectory.symm).symm
    exact ⟨_, _, _, _, ⟨rfl, rfl⟩, ⟨rfl, rfl⟩, file_eq_iff hdirectory, file_eq_iff hdirectory,
      file_ne hdirectory, hsidecar⟩

/-- The default settings with more generations. -/
def evolved : Settings :=
  { defaults with derivationLength := 22 }

/-- A name that goes on like a file and a short one, with numbers that begin alike. -/
theorem defaultPaths_apart_evolved :
    (defaults.outputDir = evolved.outputDir ∧ '/' ∉ "a_2.vox".toList ∧ '/' ∉ "a".toList) ∧
    ∃ drawing drawing' sidecar sidecar',
      ((defaults.preparePath "a_2.vox").result = .ok drawing ∧
        (defaults.prepareSidecarPath "a_2.vox").result = .ok sidecar) ∧
      ((evolved.preparePath "a").result = .ok drawing' ∧
        (evolved.prepareSidecarPath "a").result = .ok sidecar') ∧
      drawing ≠ drawing' ∧ sidecar ≠ sidecar' ∧ drawing ≠ sidecar' ∧ sidecar ≠ drawing' := by
  have hdirectory : defaults.outputDir = evolved.outputDir := rfl
  have h : '/' ∉ "a_2.vox".toList := by decide
  have h' : '/' ∉ "a".toList := by decide
  obtain ⟨drawing, drawing', sidecar, sidecar', hs, hs', hdrawings, hsidecars, hapart⟩ :=
    (defaultPaths_apart hdirectory h h').2 (by decide +kernel) (by decide +kernel)
  have hname : ¬("a_2.vox" = "a" ∧ defaults.derivationLength = evolved.derivationLength) := by
    decide
  exact ⟨⟨hdirectory, h, h'⟩, drawing, drawing', sidecar, sidecar', hs, hs',
    hdrawings.not.mpr hname, hsidecars.not.mpr hname, hapart⟩

end Settings
end VoxelCurve
