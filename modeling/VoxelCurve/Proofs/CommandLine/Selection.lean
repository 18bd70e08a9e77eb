import VoxelCurve.CommandLine.Program
import VoxelCurve.Proofs.CommandLine.Options
import VoxelCurve.Proofs.Files.Tree
import VoxelCurve.Proofs.Grammar.Refusal
import VoxelCurve.Proofs.Run.Script

/-!
Selecting a grammar on the command line.

A command that works on a grammar is told by one of three options which one it is, and these
exclude each other.  The one that was given is meant, unless its value is an empty text, which
counts as if there were none: an empty name of a built-in grammar leaves nothing to start from, and
an empty axiom is not seen beside rules.  A file is loaded, or there is a complaint about it, if
its path can be looked up and its document is within the limits of the reader.
-/

namespace VoxelCurve
namespace CommandLine

/-! ## The options that were given -/

/-- The grammar that a command works on. -/
def Command.grammar? : Command → Option GrammarChoice
  | render arguments => some arguments.grammar
  | derive grammar _ => some grammar
  | presets | inspect _ => none

/-- The options that say which grammar is meant. -/
def sourceNames : List String :=
  ["--preset", "--grammar", "--axiom"]

/-- The command was read by its own form. -/
theorem exists_read_of_request {words : List String} {r : Request} {c : GrammarChoice}
    (h : request words = .ok r) (hc : r.command.grammar? = some c) :
    ∃ f ∈ [Form.render, Form.derive], ∃ rest p, read f rest = .ok p ∧ c = p.grammarChoice := by
  obtain ⟨top, -, h⟩ := bind_eq_ok_iff.mp h
  split at h
  · cases h
  · next name rest hname =>
    split at h
    · cases h
    · next f hf =>
      obtain ⟨p, hp, h⟩ := bind_eq_ok_iff.mp h
      split at h
      · obtain rfl := Except.ok.inj h
        dsimp only at hc
        unfold Parsed.command at hc
        split at hc
        · obtain rfl := Option.some.inj hf
          exact ⟨_, List.mem_cons_self, rest, p, hp, (Option.some.inj hc).symm⟩
        · obtain rfl := Option.some.inj hf
          exact ⟨_, List.mem_cons_of_mem _ List.mem_cons_self, rest, p, hp,
            (Option.some.inj hc).symm⟩
        · cases hc
        · cases hc
      · cases h

/-- At most one of them has a value. -/
theorem value?_eq_none_of_value? {f : Form} (hf : f ∈ [Form.render, Form.derive]) {p : Parsed}
    (hp : p.IsApart f) {name name' : String} (hname : name ∈ sourceNames)
    (hname' : name' ∈ sourceNames) (hne : name ≠ name') {a : Argument}
    (h : p.value? name = some a) : p.value? name' = none := by
  have hexclusive : ∀ f ∈ [Form.render, Form.derive], ∀ name ∈ sourceNames, ∀ o ∈ f.options,
      o.names.contains name = true → o.isExclusive = true := by decide
  have halone : ∀ f ∈ [Form.render, Form.derive], ∀ name ∈ sourceNames, ∀ name' ∈ sourceNames,
      name ≠ name' → ∀ o ∈ f.options, o.names.contains name = true →
        ¬o.names.contains name' = true := by decide
  cases h' : p.value? name' with
  | none => rfl
  | some a' =>
    obtain ⟨o, ho, honame, honame'⟩ := hp.option_eq (hexclusive f hf name hname)
      (hexclusive f hf name' hname') h h'
    exact absurd honame' (halone f hf name hname name' hname' hne o ho honame)

/-- No more than one of the options was given a text. -/
structure GrammarChoice.IsSingle (c : GrammarChoice) : Prop where
  preset : c.preset?.isSome = true → c.file? = none ∧ c.start? = none
  file : c.file?.isSome = true → c.preset? = none ∧ c.start? = none
  start : c.start?.isSome = true → c.preset? = none ∧ c.file? = none

theorem isSingle_of_request {words : List String} {r : Request} {c : GrammarChoice}
    (h : request words = .ok r) (hc : r.command.grammar? = some c) : c.IsSingle := by
  obtain ⟨f, hf, rest, p, hp, rfl⟩ := exists_read_of_request h hc
  have hnone : ∀ {name name' : String}, name ∈ sourceNames → name' ∈ sourceNames → name ≠ name' →
      (p.value? name).isSome = true → p.value? name' = none := by
    intro name name' hname hname' hne hsome
    obtain ⟨a, ha⟩ := Option.isSome_iff_exists.mp hsome
    exact value?_eq_none_of_value? hf (Parsed.isApart_of_read hp) hname hname' hne ha
  have hgiven : ∀ {name : String},
      (p.text? name).isSome = true → (p.value? name).isSome = true := by
    intro name h
    obtain ⟨s, hs⟩ := Option.isSome_iff_exists.mp h
    obtain ⟨a, ha, -⟩ := Option.bind_eq_some_iff.mp hs
    rw [ha]
    rfl
  have htext : ∀ {name : String}, p.value? name = none → p.text? name = none := by
    intro name h
    rw [Parsed.text?, h]
    rfl
  constructor
  case preset =>
    intro h
    exact ⟨htext (hnone (by decide) (by decide) (by decide) (hgiven h)),
      Option.map_eq_none_iff.mpr (hnone (by decide) (by decide) (by decide) (hgiven h))⟩
  case file =>
    intro h
    exact ⟨htext (hnone (by decide) (by decide) (by decide) (hgiven h)),
      Option.map_eq_none_iff.mpr (hnone (by decide) (by decide) (by decide) (hgiven h))⟩
  case start =>
    intro h
    have hvalue := Option.isSome_map.symm.trans h
    exact ⟨htext (hnone (by decide) (by decide) (by decide) hvalue),
      htext (hnone (by decide) (by decide) (by decide) hvalue)⟩

/-! ## What is meant -/

/-- One of the three ways to say which grammar is meant, with the texts that were given. -/
inductive Selection where
  | preset (name : String)
  | file (path : String)
  | start (text : String) (rules : List String)

/-- Whether a grammar was selected in this way, with rules only beside an axiom. -/
def GrammarChoice.Selects (c : GrammarChoice) : Selection → Prop
  | .preset name => c.preset? = some name ∧ c.rules = []
  | .file path => c.file? = some path ∧ c.rules = []
  | .start text rules => c.start? = some text ∧ c.rules = rules.map .text

end CommandLine

/-- A grammar under the name that was given for it, unless that is empty. -/
def LSystem.renamed (g : LSystem) (name? : Option String) : LSystem :=
  match CommandLine.GrammarChoice.filled? name? with
  | some name => { g with name := .text name }
  | none => g

namespace Preset

theorem find_name {p : Preset} (h : p ∈ all) : find p.name = .ok p := by
  have hall : ∀ p ∈ all, find p.name = .ok p := by
    simp only [all, List.forall_mem_cons]
    exact ⟨rfl, rfl, rfl, rfl, List.forall_mem_nil _⟩
  exact hall p h

theorem find_of_notMem {name : String} (h : name ∉ names) :
    find name = .error ⟨Text.quoted name⟩ := by
  have hnone : all.find? (fun p => p.name == name) = none := by
    rw [List.find?_eq_none]
    intro p hp hsame
    exact h (beq_iff_eq.mp hsame ▸ List.mem_map_of_mem hp)
  rw [find, hnone]

end Preset

namespace CommandLine

namespace Selection

/-- What a script is to do that gets at the grammar that is meant, with the settings that belong to
it.  A name that is not empty changes nothing but the name. -/
def IsResolved (m : Machine) (contents : Contents) (name? : Option String)
    (script : CommandScript (LSystem × Fields)) : Selection → Prop
  | preset name =>
    (∀ p ∈ Preset.all, p.name = name → script = .done (p.system.renamed name?, p.options)) ∧
    (name ∉ Preset.names → script = .fail (.preset ⟨Text.quoted name⟩))
  | file path => script = do
    let g ← loadGrammar m contents (Path.ofText path)
    pure (g.renamed name?, [])
  | start text rules => script = do
    let name := (GrammarChoice.filled? name?).getD "lsystem"
    let g ← (Script.ofReading (LSystem.ofTexts name text rules)).mapError .grammar
    pure (g.renamed name?, [])

/-- What it takes for the selected grammar to be the one that is meant: no empty name of a built-in
one, no empty axiom with rules, no path that is never looked up, and no document past the limits of
its reader. -/
def IsHonored (m : Machine) (t : Tree) : Selection → Prop
  | preset name => name ≠ ""
  | file path =>
    Tree.IsAddress (Path.ofText path) ∧
    ∀ bytes limit, t.read (Path.ofText path) = .ok bytes →
      Json.readBytes m.readingDepth bytes = .error limit → limit = .notText ∨ limit = .malformed
  | start text rules => text = "" → rules = []

end Selection

/-! ## Complaints -/

theorem isSome_status?_grammar {fault : GrammarFault} (h : fault.isRefusal = true) :
    (CommandFault.grammar fault).status?.isSome = true := by
  rw [CommandFault.status?, if_pos h]
  rfl

/-- A file is loaded or complained about if it can be looked up and its document is within the
limits of the reader. -/
theorem caught_loadGrammar_iff {m : Machine} {t : Tree} {path : String} :
    (∀ fault, (loadGrammar m t.read (Path.ofText path)).result = .error fault →
      fault.status?.isSome = true) ↔ (Selection.file path).IsHonored m t := by
  rw [Selection.IsHonored]
  cases hread : t.read (Path.ofText path) with
  | error e =>
    rw [← Tree.isOfSystem_iff_of_read hread]
    have hload : loadGrammar m t.read (Path.ofText path) = .fail (.file e) := by
      rw [loadGrammar, hread]
    have hstatus : (CommandFault.file e).status?.isSome = e.fault.isOfSystem := by
      rw [CommandFault.status?]
      cases e.fault.isOfSystem <;> rfl
    rw [hload]
    constructor
    · intro h
      exact ⟨hstatus ▸ h _ rfl, fun _ _ hok => nomatch hok⟩
    · rintro ⟨h, -⟩ fault hfault
      obtain rfl := Except.error.inj hfault
      rw [hstatus, h]
  | ok bytes =>
    rw [loadGrammar, hread]
    dsimp only
    cases hbytes : LSystem.ofBytes m.readingDepth bytes (Path.ofText path).text with
    | error limit =>
      obtain ⟨hlimit, hnotText, hmalformed⟩ := LSystem.ofBytes_eq_error_iff.mp hbytes
      refine iff_of_false (fun h => ?_) fun h => ?_
      · exact Bool.false_ne_true (h _ rfl)
      · obtain h | h := h.2 bytes limit rfl hlimit
        · exact hnotText h
        · exact hmalformed h
    | ok reading =>
      refine iff_of_true ?_ ⟨Tree.isAddress_of_read hread, ?_⟩
      · intro fault hfault
        obtain ⟨cause, hcause, rfl⟩ := mapError_eq_error_iff.mp hfault
        exact isSome_status?_grammar (LSystem.isRefusal_of_ofBytes hbytes hcause)
      · intro bytes' limit hsame hlimit
        obtain rfl := Except.ok.inj hsame
        by_contra hneither
        rw [not_or] at hneither
        cases hbytes.symm.trans (LSystem.ofBytes_eq_error_iff.mpr ⟨hlimit, hneither⟩)

/-! ## The grammar that is meant -/

namespace GrammarChoice

variable {c : GrammarChoice} {m : Machine} {contents : Contents}

theorem name_renamed (g : LSystem) (name? : Option String) :
    { g with name := (filled? name?).elim g.name Value.text } = g.renamed name? := by
  rw [LSystem.renamed]
  cases filled? name? <;> rfl

theorem filled?_of_ne {text : String} (h : text ≠ "") : filled? (some text) = some text := by
  have hempty : text.isEmpty = false := by
    rw [Bool.eq_false_iff, ne_eq, String.isEmpty_iff]
    exact h
  rw [filled?, Option.filter_some, hempty]
  rfl

/-- Rules are only allowed beside an axiom that is not empty. -/
theorem resolve_eq (h : c.rules = [] ∨ (filled? c.start?).isSome = true) :
    c.resolve m contents =
      c.source m contents >>= fun x => pure (x.1.renamed c.name?, x.2) := by
  have hguard : ¬(!c.rules.isEmpty && (filled? c.start?).isNone) = true := by
    obtain h | h := h
    · rw [h]
      exact Bool.false_ne_true
    · rw [← Option.not_isSome, h, Bool.not_true, Bool.and_false]
      exact Bool.false_ne_true
  rw [resolve, if_neg hguard]
  simp only [name_renamed]

theorem renamed_alone (s : CommandScript LSystem) (name? : Option String) :
    ((s >>= fun g => pure (g, ([] : Fields))) >>= fun x => pure (x.1.renamed name?, x.2)) =
      s >>= fun g => pure (g.renamed name?, []) := by
  obtain ⟨steps, fault | g⟩ := s
  · rfl
  · show Script.mk (steps ++ [] ++ []) _ = Script.mk (steps ++ []) _
    rw [List.append_nil]

theorem resolve_preset {name : String} (hpreset : c.preset? = some name) (hrules : c.rules = [])
    (hname : name ≠ "") :
    c.resolve m contents = match Preset.find name with
      | .ok p => .done (p.system.renamed c.name?, p.options)
      | .error fault => .fail (.preset fault) := by
  rw [resolve_eq (.inl hrules), source, hpreset, filled?_of_ne hname]
  dsimp only
  cases Preset.find name <;> rfl

theorem isResolved_preset {name : String} (hpreset : c.preset? = some name) (hrules : c.rules = [])
    (hname : name ≠ "") :
    (Selection.preset name).IsResolved m contents c.name? (c.resolve m contents) := by
  rw [resolve_preset hpreset hrules hname]
  constructor
  · rintro p hp rfl
    rw [Preset.find_name hp]
  · intro hunknown
    rw [Preset.find_of_notMem hunknown]

theorem resolve_emptyPreset (hpreset : c.preset? = some "") (hrules : c.rules = [])
    (hsingle : c.IsSingle) : c.resolve m contents = .fail .noStart := by
  obtain ⟨hfile, hstart⟩ := hsingle.preset (by rw [hpreset]; rfl)
  have hempty : filled? (some "") = none := rfl
  rw [resolve_eq (.inl hrules), source, hpreset, hfile, hstart, hempty]
  rfl

theorem isResolved_file {path : String} (hfile : c.file? = some path) (hrules : c.rules = [])
    (hsingle : c.IsSingle) :
    (Selection.file path).IsResolved m contents c.name? (c.resolve m contents) := by
  have hpreset := (hsingle.file (by rw [hfile]; rfl)).1
  have hnone : filled? none = none := rfl
  rw [resolve_eq (.inl hrules), source, hpreset, hfile, hnone]
  exact renamed_alone _ _

theorem isResolved_start {text : String} {rules : List String} (hstart : c.start? = some text)
    (hrules : c.rules = rules.map .text) (hsingle : c.IsSingle) (hempty : text = "" → rules = []) :
    (Selection.start text rules).IsResolved m contents c.name? (c.resolve m contents) := by
  obtain ⟨hpreset, hfile⟩ := hsingle.start (by rw [hstart]; rfl)
  have hnone : filled? none = none := rfl
  have hallowed : c.rules = [] ∨ (filled? c.start?).isSome = true := by
    by_cases htext : text = ""
    · exact .inl (by rw [hrules, hempty htext]; rfl)
    · exact .inr (by rw [hstart, filled?_of_ne htext]; rfl)
  rw [resolve_eq hallowed, source, hpreset, hfile, hstart, hnone, hrules]
  dsimp only
  rw [LSystem.ofValues_text]
  exact renamed_alone _ _

theorem resolve_rulesAlone {rules : List String} (hstart : c.start? = some "")
    (hrules : c.rules = rules.map .text) (hne : rules ≠ []) :
    c.resolve m contents = .fail .rulesAlone := by
  have hempty : filled? (some "") = none := rfl
  have hsome : c.rules.isEmpty = false := by
    rw [hrules, List.isEmpty_eq_false_iff, ne_eq, List.map_eq_nil_iff]
    exact hne
  rw [resolve, hstart, hempty, hsome]
  rfl

end GrammarChoice

namespace Selection.IsResolved

variable {m : Machine} {contents : Contents} {name? : Option String}
  {script : CommandScript (LSystem × Fields)} {fault : CommandFault}

/-- Names are never complained about in another way than as unknown. -/
theorem exists_of_preset {name : String} (h : (preset name).IsResolved m contents name? script)
    (hfault : script.result = .error fault) : ∃ cause, fault = .preset cause := by
  by_cases hname : name ∈ Preset.names
  · obtain ⟨p, hp, rfl⟩ := List.mem_map.mp hname
    rw [h.1 p hp rfl] at hfault
    cases hfault
  · rw [h.2 hname] at hfault
    exact ⟨_, (Except.error.inj hfault).symm⟩

theorem result_file {path : String} (h : (file path).IsResolved m contents name? script) :
    script.result = .error fault ↔
      (loadGrammar m contents (Path.ofText path)).result = .error fault := by
  rw [IsResolved] at h
  rw [h, Script.result_bind]
  exact map_eq_error_iff

/-- Texts are never complained about in another way than as a grammar. -/
theorem exists_of_start {text : String} {rules : List String}
    (h : (start text rules).IsResolved m contents name? script)
    (hfault : script.result = .error fault) :
    ∃ cause : GrammarFault, fault = .grammar cause ∧ cause.isRefusal = true := by
  rw [IsResolved] at h
  rw [h, Script.result_bind] at hfault
  obtain ⟨cause, hcause, rfl⟩ := mapError_eq_error_iff.mp (map_eq_error_iff.mp hfault)
  exact ⟨cause, rfl, LSystem.isRefusal_of_ofTexts hcause⟩

end Selection.IsResolved

/-- For every command line that is accepted and selects a grammar by one of the three options, with
rules only beside an axiom, the selected grammar or the complaint about it is what comes out and
every fault is caught, unless the selection cannot be honored. -/
theorem resolve_selected_iff {words : List String} {r : Request} {c : GrammarChoice}
    {selection : Selection} (m : Machine) (t : Tree) (hrequest : request words = .ok r)
    (hgrammar : r.command.grammar? = some c) (hselects : c.Selects selection) :
    (selection.IsResolved m t.read c.name? (c.resolve m t.read) ∧
      ∀ fault, (c.resolve m t.read).result = .error fault → fault.status?.isSome = true) ↔
        selection.IsHonored m t := by
  have hsingle := isSingle_of_request hrequest hgrammar
  cases selection with
  | preset name =>
    obtain ⟨hpreset, hrules⟩ := hselects
    by_cases hname : name = ""
    · subst hname
      refine iff_of_false (fun h => Bool.false_ne_true (h.2 .noStart ?_)) fun h => h rfl
      rw [GrammarChoice.resolve_emptyPreset hpreset hrules hsingle]
      rfl
    · have hresolved : (Selection.preset name).IsResolved m t.read c.name? (c.resolve m t.read) :=
        GrammarChoice.isResolved_preset hpreset hrules hname
      refine iff_of_true ⟨hresolved, fun fault hfault => ?_⟩ hname
      obtain ⟨cause, rfl⟩ := hresolved.exists_of_preset hfault
      rfl
  | file path =>
    obtain ⟨hfile, hrules⟩ := hselects
    have hresolved : (Selection.file path).IsResolved m t.read c.name? (c.resolve m t.read) :=
      GrammarChoice.isResolved_file hfile hrules hsingle
    rw [← caught_loadGrammar_iff, and_iff_right hresolved]
    exact forall_congr' fun fault => imp_congr_left hresolved.result_file
  | start text rules =>
    obtain ⟨hstart, hrules⟩ := hselects
    by_cases hempty : text = "" → rules = []
    · have hresolved :
          (Selection.start text rules).IsResolved m t.read c.name? (c.resolve m t.read) :=
        GrammarChoice.isResolved_start hstart hrules hsingle hempty
      refine iff_of_true ⟨hresolved, fun fault hfault => ?_⟩ hempty
      obtain ⟨cause, rfl, hrefusal⟩ := hresolved.exists_of_start hfault
      exact isSome_status?_grammar hrefusal
    · refine iff_of_false (fun h => ?_) hempty
      obtain ⟨htext, hne⟩ := Classical.not_imp.mp hempty
      subst htext
      have halone : c.resolve m t.read = .fail .rulesAlone :=
        GrammarChoice.resolve_rulesAlone hstart hrules hne
      obtain ⟨cause, hcause, -⟩ := h.1.exists_of_start (congrArg Script.result halone)
      cases hcause

/-- The choice of a curve that doubles its one stroke, under a name of its own. -/
def twin : GrammarChoice where
  preset? := none
  file? := none
  start? := some "F"
  rules := [.text "F→FF"]
  name? := some "twin"

/-- The curve that was given by its texts is resolved from them. -/
theorem resolve_selected_twin :
    (request ["derive", "--axiom", "F", "--rule", "F→FF", "--name", "twin"] =
        .ok ⟨0, .derive twin (.int 2)⟩ ∧
      twin.Selects (.start "F" ["F→FF"])) ∧
    (Selection.start "F" ["F→FF"]).IsResolved .narrow (Tree.empty "work").read (some "twin")
      (twin.resolve .narrow (Tree.empty "work").read) := by
  have hselects : twin.Selects (.start "F" ["F→FF"]) := ⟨rfl, rfl⟩
  have hhonored : (Selection.start "F" ["F→FF"]).IsHonored .narrow (Tree.empty "work") :=
    fun hempty => absurd hempty (by decide)
  exact ⟨⟨rfl, hselects⟩,
    ((resolve_selected_iff .narrow (Tree.empty "work")
      (show request ["derive", "--axiom", "F", "--rule", "F→FF", "--name", "twin"] =
        .ok ⟨0, .derive twin (.int 2)⟩ from rfl) rfl hselects).mpr hhonored).1⟩

/-- The choice of the built-in grammar with the empty name. -/
def nameless : GrammarChoice where
  preset? := some ""
  file? := none
  start? := none
  rules := []
  name? := none

/-- An empty name is selected and not missed: what comes out is no complaint about it, and is not
caught, whatever the machine. -/
theorem not_resolved_nameless :
    request ["derive", "--preset", ""] = .ok ⟨0, .derive nameless (.int 2)⟩ ∧
    nameless.Selects (.preset "") ∧
    ∀ m, (nameless.resolve m (Tree.empty "work").read).result ≠
        .error (.preset ⟨Text.quoted ""⟩) ∧
      ¬((Selection.preset "").IsResolved m (Tree.empty "work").read none
          (nameless.resolve m (Tree.empty "work").read) ∧
        ∀ fault, (nameless.resolve m (Tree.empty "work").read).result = .error fault →
          fault.status?.isSome = true) := by
  have hrequest : request ["derive", "--preset", ""] = .ok ⟨0, .derive nameless (.int 2)⟩ := rfl
  refine ⟨hrequest, ⟨rfl, rfl⟩, fun m => ?_⟩
  have hfail : nameless.resolve m (Tree.empty "work").read = .fail .noStart :=
    GrammarChoice.resolve_emptyPreset rfl rfl (isSingle_of_request hrequest rfl)
  refine ⟨?_, fun h => Bool.false_ne_true (h.2 .noStart ?_)⟩
  · rw [hfail]
    exact fun h => nomatch h
  · rw [hfail]
    rfl

end CommandLine
end VoxelCurve
