import Mathlib.Algebra.Ring.Int.Defs
import VoxelCurve.Proofs.Json.Writing
import VoxelCurve.Render.Sidecar

/-!
What is written beside a drawing, and read again.

A document that the machine can write is saved wherever there is room for a file, and the file is
read as its bytes.  A sidecar puts what it is given into a document of its own, two levels above the
settings and the statistics and one above the grammar.  If these are within what is left of the
limits of the writer and of the reader, the sidecar is read as it was written, and every part of it
is found under its name.
-/

namespace VoxelCurve

namespace Tree

/-- Whether a file can be put at a path once the directory it lies in has been made. -/
def HasRoom (t : Tree) (m : Machine) (p : Path) : Prop :=
  ∃ t₁ l node?, t.makeDirectory m p.parent = (t₁, none) ∧ t₁.locate p = .ok (l, node?) ∧
    node? ≠ some .directory

/-- Whether these bytes are read at a path, also if it is given as a text that is no directory's. -/
def Gives (t : Tree) (p : Path) (bytes : List UInt8) : Prop :=
  t.read p = .ok bytes ∧ ∀ text, Path.ofText text = p → Path.endsInDirectory text = false →
    t.readWritten text = .ok bytes

theorem hasRoom_of_locate {t : Tree} {p : Path} {l k : Location} (m : Machine)
    (hparent : t.locate p.parent = .ok (l, some .directory)) (h : t.locate p = .ok (k, none)) :
    t.HasRoom m p :=
  ⟨t, k, none, makeDirectory_of_locate m hparent, h, fun e => nomatch e⟩

theorem gives_of_write {t t' : Tree} {p : Path} {bytes : List UInt8}
    (h : t.write p bytes = .ok t') : t'.Gives p bytes := by
  obtain ⟨l, node?, hl, hways, hfind⟩ := of_write h
  have hread : t'.read p = .ok bytes := by
    rw [read, hways.locate hl, hfind, if_pos rfl]
  refine ⟨hread, ?_⟩
  rintro text rfl hends
  show (t'.read (Path.ofText text) >>= fun bytes =>
    if Path.endsInDirectory text then .error ⟨.notDirectory, text⟩ else .ok bytes) = _
  rw [hread, hends]
  rfl

end Tree

namespace Sidecar

open Json (Durable Bounded)
open Text (Whole)

/-! ## Documents in files -/

/-- The bytes of a document in a file. -/
def bytes (document : Value) : List UInt8 :=
  (Json.printedPieces document).flatMap Text.utf8

section Save

variable {ε : Type} {m : Machine} {t t' : Tree} {p : Path} {document : Value}

theorem returns_save_iff {u : Unit} :
    (save p document : Script ε Unit).Returns m t u t' ↔
      Json.Writes m document ∧
        ∃ t₁, t.makeDirectory m p.parent = (t₁, none) ∧ t₁.write p (bytes document) = .ok t' := by
  rw [save, Script.returns_bind_iff]
  simp only [Script.returns_makeDirectory_iff, Script.returns_writeText_iff]
  constructor
  · rintro ⟨-, t₁, hmake, hwrite, hwrites⟩
    exact ⟨hwrites, t₁, hmake, hwrite⟩
  · rintro ⟨hwrites, t₁, hmake, hwrite⟩
    exact ⟨(), t₁, hmake, hwrite, hwrites⟩

/-- A document is saved exactly if the machine can write it and there is room for a file. -/
theorem exists_returns_save_iff :
    (∃ t', (save p document : Script ε Unit).Returns m t () t') ↔
      Json.Writes m document ∧ t.HasRoom m p := by
  simp only [returns_save_iff]
  constructor
  · rintro ⟨t', hwrites, t₁, hmake, hwrite⟩
    obtain ⟨l, node?, hl, hnode, -⟩ := Tree.exists_locate_of_write hwrite
    exact ⟨hwrites, t₁, l, node?, hmake, hl, hnode⟩
  · rintro ⟨hwrites, t₁, l, node?, hmake, hl, hnode⟩
    exact ⟨_, hwrites, t₁, hmake, Tree.write_of_locate hl hnode _⟩

theorem gives_of_returns_save (hreturns : (save p document : Script ε Unit).Returns m t () t') :
    t'.Gives p (bytes document) := by
  obtain ⟨-, t₁, -, hwrite⟩ := returns_save_iff.mp hreturns
  exact Tree.gives_of_write hwrite

end Save

/-! ## Documents of drawings -/

/-- What is found in a sidecar under each of its names. -/
structure Describes (metadata : Fields) (grammar : Value) (config statistics : Fields)
    (voxFile : Value) : Prop where
  grammar : metadata.get? "grammar" = some grammar
  voxFile : metadata.get? "vox_file" = some voxFile
  render : ∃ settings : Fields, metadata.get? "render" = some (.object settings) ∧
    settings.names = ["derivation_length", "step_size", "angle_increment", "size_x", "size_y",
      "size_z", "offset_x", "offset_y", "rainbow"] ∧
    ∀ name ∈ settings.names, settings.get? name = some ((config.get? name).getD .null)
  stats : ∃ figures : Fields, metadata.get? "stats" = some (.object figures) ∧
    figures.names = ["num_commands", "num_voxels", "num_colors", "occupancy_ratio",
      "final_position"] ∧
    figures.get? "num_commands" = some ((statistics.get? "num_commands").getD (.int 0)) ∧
    figures.get? "num_voxels" = some ((statistics.get? "num_voxels").getD (.int 0)) ∧
    figures.get? "num_colors" = some ((statistics.get? "num_colors").getD (.int 0)) ∧
    figures.get? "occupancy_ratio" = some ((statistics.get? "occupancy_ratio").getD (.float 0.0)) ∧
    figures.get? "final_position" = some ((statistics.get? "final_position").getD .null)

variable {grammar voxFile : Value} {config statistics : Fields} {createdAt : String}

theorem names_settings (config : Fields) : (settings config).names = settingNames := by
  rw [settings, Fields.names, List.map_map]
  exact List.map_id _

theorem get?_settings {name : String} (h : name ∈ settingNames) :
    (settings config).get? name = some ((config.get? name).getD .null) := by
  have hmap : ∀ names : List String, name ∈ names →
      Fields.get? (names.map fun n => (n, (config.get? n).getD .null)) name =
        some ((config.get? name).getD .null) := by
    intro names hmem
    induction names with
    | nil => cases hmem
    | cons n names ih =>
      rw [List.map_cons, Fields.get?_cons]
      by_cases hname : name = n
      · rw [if_pos hname, hname]
      · rw [if_neg hname]
        exact ih (List.mem_of_ne_of_mem hname hmem)
  exact hmap settingNames h

theorem exists_describes :
    ∃ metadata, document createdAt grammar config statistics voxFile = .object metadata ∧
      Describes metadata grammar config statistics voxFile := by
  have hrender : ∀ name ∈ (settings config).names,
      (settings config).get? name = some ((config.get? name).getD .null) := by
    rw [names_settings]
    exact fun name => get?_settings
  exact ⟨_, rfl, rfl, rfl, ⟨_, rfl, names_settings config, hrender⟩,
    ⟨_, rfl, rfl, rfl, rfl, rfl, rfl, rfl⟩⟩

theorem whole_names {names : List String}
    (h : (names.all fun name => name.toList.all fun c => (Text.half? c).isNone) = true) :
    ∀ name ∈ names, Whole name.toList :=
  fun name hname => Text.whole_of_all (List.all_eq_true.mp h name hname)

theorem durable_getD {depth : Nat} {v? : Option Value} {default : Value}
    (h : ∀ v ∈ v?, Durable depth v) (hdefault : Durable depth default) :
    Durable depth (v?.getD default) := by
  cases v? with
  | none => exact hdefault
  | some v => exact h v rfl

theorem durable_settings {depth : Nat}
    (h : ∀ name ∈ settingNames, ∀ v ∈ config.get? name, Durable depth v) :
    Durable (depth + 1) (.object (settings config)) := by
  have hapart : (settings config).names.Nodup := by
    rw [names_settings]
    decide
  have hwhole : ∀ name ∈ settingNames, Whole name.toList := whole_names (by decide +kernel)
  refine Json.durable_object hapart (fun f hf => ?_) fun f hf => ?_
  · obtain ⟨name, hname, rfl⟩ := List.mem_map.mp hf
    exact hwhole name hname
  · obtain ⟨name, hname, rfl⟩ := List.mem_map.mp hf
    exact durable_getD (h name hname) Json.durable_null

theorem durable_statDefaults (depth : Nat) : ∀ d ∈ statDefaults, Durable depth d.2 := by
  have hcount : Durable depth (.int 0) := ⟨.int (by decide +kernel), .int⟩
  have hratio : Durable depth (.float 0.0) := ⟨.float, .float rfl⟩
  simp only [statDefaults, List.forall_mem_cons]
  exact ⟨hcount, hcount, hcount, hratio, Json.durable_null, List.forall_mem_nil _⟩

theorem durable_stats {depth : Nat}
    (h : ∀ d ∈ statDefaults, ∀ v ∈ statistics.get? d.1, Durable depth v) :
    Durable (depth + 1) (.object (stats statistics)) := by
  have hapart : (statDefaults.map (·.1)).Nodup := by decide
  have hwhole : ∀ name ∈ statDefaults.map (·.1), Whole name.toList :=
    whole_names (by decide +kernel)
  refine Json.durable_object hapart (fun f hf => ?_) fun f hf => ?_
  · obtain ⟨d, hd, rfl⟩ := List.mem_map.mp hf
    exact hwhole d.1 (List.mem_map_of_mem hd)
  · obtain ⟨d, hd, rfl⟩ := List.mem_map.mp hf
    exact durable_getD (h d hd) (durable_statDefaults depth d hd)

theorem durable_document {depth : Nat} (hcreated : Whole createdAt.toList)
    (hgrammar : Durable (depth + 1) grammar)
    (hconfig : ∀ name ∈ settingNames, ∀ v ∈ config.get? name, Durable depth v)
    (hstatistics : ∀ d ∈ statDefaults, ∀ v ∈ statistics.get? d.1, Durable depth v)
    (hvox : Durable (depth + 1) voxFile) :
    Durable (depth + 2) (document createdAt grammar config statistics voxFile) := by
  have hnames : ∀ name ∈ ["generator", "version", "created_at", "vox_file", "grammar", "render",
      "stats"], Whole name.toList := whole_names (by decide +kernel)
  refine Json.durable_object ?_ (fun f hf => hnames f.1 (List.mem_map_of_mem hf)) ?_
  · show ["generator", "version", "created_at", "vox_file", "grammar", "render", "stats"].Nodup
    decide
  · simp only [List.forall_mem_cons]
    exact ⟨Json.durable_text (Text.whole_of_all (by decide +kernel)),
      Json.durable_text (Text.whole_of_all (by decide +kernel)), Json.durable_text hcreated, hvox,
      hgrammar, durable_settings hconfig, durable_stats hstatistics, List.forall_mem_nil _⟩

/-- The name of a file, or nothing. -/
def fileField (voxFile? : Option String) : Value :=
  voxFile?.elim .null .text

theorem durable_fileField {depth : Nat} {voxFile? : Option String}
    (h : ∀ name ∈ voxFile?, Whole name.toList) : Durable depth (fileField voxFile?) := by
  cases voxFile? with
  | none => exact Json.durable_null
  | some name => exact Json.durable_text (h name rfl)

/-- A sidecar is saved wherever there is room for a file, and read again with all that it was given:
the grammar as it was, the settings that a drawing depends on, and the statistics.  The writer and
the reader have to go two levels deeper than the settings and the statistics are nested and one
deeper than the grammar is, and none of the texts has a lone half of a pair. -/
theorem read_save {ε : Type} {m : Machine} {depth : Nat} (hwriting : depth + 2 ≤ m.writingDepth)
    (hreading : depth + 2 ≤ m.readingDepth) (hcreated : Whole createdAt.toList)
    (hgrammar : Durable (depth + 1) grammar)
    (hconfig : ∀ name ∈ settingNames, ∀ v ∈ config.get? name, Durable depth v)
    (hstatistics : ∀ d ∈ statDefaults, ∀ v ∈ statistics.get? d.1, Durable depth v)
    {voxFile? : Option String} (hvox : ∀ name ∈ voxFile?, Whole name.toList) (t : Tree) (p : Path) :
    ((∃ t', (save p (document createdAt grammar config statistics (fileField voxFile?)) :
        Script ε Unit).Returns m t () t') ↔ t.HasRoom m p) ∧
      (save p (document createdAt grammar config statistics (fileField voxFile?)) :
        Script ε Unit).Ensures m t fun _ t' =>
          ∃ bytes metadata, t'.Gives p bytes ∧
            read m.readingDepth bytes = .ok (.object metadata) ∧
            Describes metadata grammar config statistics (fileField voxFile?) := by
  have hdocument : Durable (depth + 2)
      (document createdAt grammar config statistics (fileField voxFile?)) :=
    durable_document hcreated hgrammar hconfig hstatistics (durable_fileField hvox)
  have hwrites : Json.Writes m
      (document createdAt grammar config statistics (fileField voxFile?)) :=
    hdocument.writes hwriting
  refine ⟨exists_returns_save_iff.trans (and_iff_right hwrites), fun u t' hreturns => ?_⟩
  obtain ⟨metadata, hmetadata, hdescribes⟩ : ∃ metadata,
      document createdAt grammar config statistics (fileField voxFile?) = .object metadata ∧
        Describes metadata grammar config statistics (fileField voxFile?) := exists_describes
  refine ⟨_, metadata, gives_of_returns_save hreturns, ?_, hdescribes⟩
  rw [← hmetadata]
  exact hdocument.proper.readBytes_iff.mpr (hdocument.bounded.mono hreading)

/-- A grammar with more in it than the rules of grammars ask for. -/
def annotated : Value :=
  .object [("name", .text "\"é\"\n"), ("notes", .list [.null, .int (-12), .text "two"])]

theorem read_save_annotated :
    ∃ t', (save ⟨.working, ["m.json"]⟩ (document "2024-05-01" annotated [("size_x", .int 0)]
        [("num_voxels", .int 7)] (fileField (some "é.vox"))) : Script Empty Unit).Returns
          .narrow (.empty "home") () t' ∧
      ∃ bytes metadata, t'.Gives ⟨.working, ["m.json"]⟩ bytes ∧
        read 3 bytes = .ok (.object metadata) ∧ Describes metadata annotated [("size_x", .int 0)]
          [("num_voxels", .int 7)] (fileField (some "é.vox")) := by
  have hgrammar : Durable 2 annotated := by
    have hnotes : Durable 1 (.list [.null, .int (-12), .text "two"]) := by
      refine Json.durable_list ?_
      simp only [List.forall_mem_cons]
      exact ⟨Json.durable_null, Json.durable_int (by decide +kernel),
        Json.durable_text (Text.whole_of_all (by decide +kernel)), List.forall_mem_nil _⟩
    refine Json.durable_object (by decide) (fun f hf => ?_) ?_
    · have hnames : ∀ name ∈ ["name", "notes"], Whole name.toList := whole_names (by decide +kernel)
      exact hnames f.1 (List.mem_map_of_mem hf)
    · simp only [List.forall_mem_cons]
      exact ⟨Json.durable_text (Text.whole_of_all (by decide +kernel)), hnotes,
        List.forall_mem_nil _⟩
  have hsize : ∀ f ∈ ([("size_x", .int 0)] : Fields), Durable 1 f.2 :=
    List.forall_mem_singleton.mpr (Json.durable_int (by decide +kernel))
  have hcount : ∀ f ∈ ([("num_voxels", .int 7)] : Fields), Durable 1 f.2 :=
    List.forall_mem_singleton.mpr (Json.durable_int (by decide +kernel))
  have hvox : ∀ name ∈ some "é.vox", Whole name.toList := by
    rintro name hname
    cases hname
    exact Text.whole_of_all (by decide +kernel)
  let t : Tree := .empty "home"
  let p : Path := ⟨.working, ["m.json"]⟩
  have hroom : t.HasRoom .narrow p := Tree.hasRoom_of_locate .narrow
    (Tree.locate_working (Tree.find?_empty "home")) (Tree.locate_empty "home" (by decide +kernel))
  have hcreated : Whole "2024-05-01".toList := Text.whole_of_all (by decide +kernel)
  have hsaved : ((∃ t', (save p _ : Script Empty Unit).Returns .narrow t () t') ↔
      t.HasRoom .narrow p) ∧ _ :=
    read_save (by decide) (by decide) hcreated hgrammar (fun _ _ => Fields.forall_mem_get? hsize)
      (fun _ _ => Fields.forall_mem_get? hcount) hvox t p
  obtain ⟨t', hreturns⟩ := hsaved.1.mpr hroom
  exact ⟨t', hreturns, hsaved.2 () t' hreturns⟩

/-- Lists in one another. -/
def nest : Nat → Value
  | 0 => .null
  | n + 1 => .list [nest n]

theorem le_of_bounded_nest {n depth : Nat} (h : Bounded depth (nest n)) : n ≤ depth := by
  induction n generalizing depth with
  | zero => exact Nat.zero_le depth
  | succ n ih =>
    cases h with
    | list each => exact Nat.succ_le_succ (ih (each _ List.mem_cons_self))

/-- A sidecar with a value in its grammar. -/
def noting (v : Value) : Value :=
  document "" (.object [("note", v)]) [] [] .null

theorem bounded_of_noting {depth : Nat} {v : Value} (h : Bounded depth (noting v)) :
    Bounded depth v := by
  obtain ⟨depth, rfl⟩ : ∃ d, depth = d + 2 := by
    cases h with
    | @object d _ each =>
      cases each ("grammar", .object [("note", v)]) (by simp) with
      | @object d _ _ => exact ⟨d, rfl⟩
  have hgrammar := Json.bounded_object_iff.mp h ("grammar", .object [("note", v)]) (by simp)
  have hnote := Json.bounded_object_iff.mp hgrammar ("note", v) List.mem_cons_self
  exact hnote.mono (Nat.le_add_right depth 2)

theorem not_bounded_tooLong {depth : Nat} :
    ¬Bounded depth (.int (10 ^ Decimal.maxIntegerDigits)) := by
  intro h
  have hlt := Decimal.isWritable_iff.mp (Json.bounded_int_iff.mp h)
  rw [Int.natAbs_pow, show (10 : Int).natAbs = 10 from rfl] at hlt
  exact Nat.lt_irrefl _ hlt

theorem not_bounded_nest (depth : Nat) : ¬Bounded depth (nest (depth + 1)) :=
  fun h => Nat.not_succ_le_self _ (le_of_bounded_nest h)

/-- A lone half of a pair in the name of the file is in the way of every sidecar.  An integer of one
digit too many, or lists in one another that are too deep, are never written, and never what is
read, whatever is in the file.  None of this is for a particular machine. -/
theorem not_read_save :
    (∀ m t', ¬(save ⟨.working, ["m.json"]⟩ (document "" (.object []) [] []
      (fileField (some (String.ofList [Text.charOfHalf 0xD800])))) : Script Empty Unit).Returns
        m (.empty "home") () t') ∧
    (∀ m t', ¬(save ⟨.working, ["m.json"]⟩ (noting (.int (10 ^ Decimal.maxIntegerDigits))) :
      Script Empty Unit).Returns m (.empty "home") () t') ∧
    (∀ depth bytes, read depth bytes ≠ .ok (noting (.int (10 ^ Decimal.maxIntegerDigits)))) ∧
    (∀ m t', ¬(save ⟨.working, ["m.json"]⟩ (noting (nest (m.writingDepth + 1))) :
      Script Empty Unit).Returns m (.empty "home") () t') ∧
    ∀ depth bytes, read depth bytes ≠ .ok (noting (nest (depth + 1))) := by
  refine ⟨fun m t' h => ?_, fun m t' h => ?_, fun depth bytes h => ?_, fun m t' h => ?_,
    fun depth bytes h => ?_⟩
  · have hencodable := (Json.writes_iff.mp (returns_save_iff.mp h).1).2
    revert hencodable
    decide +kernel
  · exact not_bounded_tooLong
      (bounded_of_noting (Json.writes_iff.mp (returns_save_iff.mp h).1).1)
  · exact not_bounded_tooLong (bounded_of_noting (Json.bounded_of_readBytes h))
  · exact not_bounded_nest _
      (bounded_of_noting (Json.writes_iff.mp (returns_save_iff.mp h).1).1)
  · exact not_bounded_nest _ (bounded_of_noting (Json.bounded_of_readBytes h))

end Sidecar
end VoxelCurve
