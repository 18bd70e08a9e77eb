import VoxelCurve.CommandLine.Execution
import VoxelCurve.Proofs.Grammar.Document
import VoxelCurve.Proofs.Render.Sidecar
import VoxelCurve.Render.Saving

/-!
Grammars in files.

The document of a grammar is made of texts.  Sentences and rules are plain, so the document has
bytes as soon as the name has, and saving it fails only where no file can be.  Whoever loads the
file reads the text that was written, in it the document, and in that the grammar: its rules in
their order, none of them with more than one symbol on its left side.
-/

namespace VoxelCurve

theorem Sentence.whole_text (s : Sentence) : Text.Whole s.text.toList := by
  rw [Sentence.text, String.toList_ofList]
  refine Text.whole_of_forall ?_
  intro c hc
  obtain ⟨symbol, -, rfl⟩ := List.mem_map.mp hc
  exact symbol.half?_char

theorem Rule.whole_text (r : Rule) : Text.Whole r.text.toList := by
  have harrow : Text.half? arrow = none := by decide +kernel
  have hsides := r.replacement.whole_text
  rw [Sentence.text, String.toList_ofList] at hsides
  rw [Rule.text, String.toList_ofList]
  exact .single r.symbol.half?_char (.single harrow hsides)

namespace LSystem

/-- The bytes of a grammar in a file. -/
def fileBytes (g : LSystem) : List UInt8 :=
  (Json.printedPieces g.toValue).flatMap Text.utf8

section Document

variable {g : LSystem} {name : String} (hname : g.name = .text name)

include hname

theorem legible_toValue (depth : Nat) : Json.Legible (depth + 2) g.toValue := by
  have hrules : ∀ v ∈ g.rules.map Value.text, Json.Legible depth v := by
    intro v hv
    obtain ⟨rule, -, rfl⟩ := List.mem_map.mp hv
    exact .text
  refine .object (show ["name", "axiom", "productions"].Nodup by decide) ?_
  simp only [toFields, hname, List.forall_mem_cons]
  exact ⟨.text, .text, .list hrules, List.forall_mem_nil _⟩

theorem worded_toValue (hwhole : Text.Whole name.toList) : Json.Worded g.toValue := by
  have hrules : ∀ v ∈ g.rules.map Value.text, Json.Worded v := by
    intro v hv
    obtain ⟨text, htext, rfl⟩ := List.mem_map.mp hv
    obtain ⟨rule, -, rfl⟩ := List.mem_map.mp htext
    exact .text rule.whole_text
  refine .object ?_ ?_
  · simp only [toFields, List.forall_mem_cons]
    exact ⟨Text.whole_of_all (by decide +kernel), Text.whole_of_all (by decide +kernel),
      Text.whole_of_all (by decide +kernel), List.forall_mem_nil _⟩
  · simp only [toFields, hname, List.forall_mem_cons]
    exact ⟨.text hwhole, .text g.start.whole_text, .list hrules, List.forall_mem_nil _⟩

variable (hwhole : Text.Whole name.toList)

include hwhole

/-- Whatever the file is called, its bytes are read as the grammar. -/
theorem ofBytes_fileBytes {depth : Nat} (hdepth : 2 ≤ depth) (path : String) :
    ofBytes depth g.fileBytes path = .ok (.of (.ok g)) := by
  obtain ⟨depth, rfl⟩ := Nat.exists_eq_add_of_le' hdepth
  have hread : Json.readBytes (depth + 2) g.fileBytes = .ok g.toValue :=
    (legible_toValue hname depth).readBytes (worded_toValue hname hwhole).encodable
  rw [ofBytes, hread, ofDocument, ofValue_toValue hname]

theorem loadGrammar_of_fileBytes {m : Machine} (hdepth : 2 ≤ m.readingDepth)
    {contents : CommandLine.Contents} {p : Path} (h : contents p = .ok g.fileBytes) :
    CommandLine.loadGrammar m contents p = .done g := by
  rw [CommandLine.loadGrammar, h]
  simp only [ofBytes_fileBytes hname hwhole hdepth]
  rfl

theorem writes_toValue {m : Machine} (hdepth : 2 ≤ m.writingDepth) : Json.Writes m g.toValue := by
  obtain ⟨depth, hlimit⟩ := Nat.exists_eq_add_of_le' hdepth
  have hlegible : Json.Legible m.writingDepth g.toValue := hlimit ▸ legible_toValue hname depth
  exact hlegible.writes (worded_toValue hname hwhole).encodable

end Document

/-- A grammar is read from its document as it was.  It is saved wherever there is room for a file,
if its name has no lone half of a pair, and loaded from there as it was, without a warning.  The
document has a list in an object, and those who write and read it have to go as deep as that. -/
theorem loadGrammar_save {ε : Type} {g : LSystem} {name : String} (hname : g.name = .text name) :
    ofValue g.toValue = .of (.ok g) ∧
    ((∀ n ∈ Text.numbers name, Text.isSurrogate n = false) → ∀ m : Machine, 2 ≤ m.writingDepth →
      ∀ (t : Tree) (p : Path),
      ((∃ t', (g.save p : Script ε Unit).Returns m t () t') ↔ t.HasRoom m p) ∧
      (g.save p : Script ε Unit).Ensures m t fun _ t' =>
        ∀ reader : Machine, 2 ≤ reader.readingDepth →
          CommandLine.loadGrammar reader t'.read p = .done g ∧
          ∀ text, Path.ofText text = p → Path.endsInDirectory text = false →
            CommandLine.loadGrammar reader (fun _ => t'.readWritten text) p = .done g) := by
  refine ⟨ofValue_toValue hname, ?_⟩
  intro hnumbers m hwriting t p
  have hwhole : Text.Whole name.toList := Text.whole_iff.mpr hnumbers
  have hwrites : Json.Writes m g.toValue := writes_toValue hname hwhole hwriting
  refine ⟨Sidecar.exists_returns_save_iff.trans (and_iff_right hwrites), ?_⟩
  intro u t' hreturns reader hreading
  obtain ⟨hread, hwritten⟩ := Sidecar.gives_of_returns_save hreturns
  refine ⟨loadGrammar_of_fileBytes hname hwhole hreading hread, ?_⟩
  intro text htext hends
  exact loadGrammar_of_fileBytes hname hwhole hreading (hwritten text htext hends)

/-- A grammar with much to escape in its name, and a rule that leaves nothing. -/
def escaped : LSystem :=
  ⟨.text "\"a\\b\"\n\x07 é 😀", [.draw, .subfigureA],
    ⟨[⟨.subfigureA, []⟩, ⟨.draw, [.draw, .left, .drawLeft]⟩], by decide⟩⟩

theorem loadGrammar_save_escaped :
    escaped.name = .text "\"a\\b\"\n\x07 é 😀" ∧
      ∃ t', (escaped.save ⟨.working, ["g.json"]⟩ : Script RenderFault Unit).Returns
          .narrow (.empty "home") () t' ∧
        CommandLine.loadGrammar .narrow t'.read ⟨.working, ["g.json"]⟩ = .done escaped := by
  let t : Tree := .empty "home"
  let p : Path := ⟨.working, ["g.json"]⟩
  have hroom : t.HasRoom .narrow p := Tree.hasRoom_of_locate .narrow
    (Tree.locate_working (Tree.find?_empty "home")) (Tree.locate_empty "home" (by decide +kernel))
  have hsaved : ((∃ t', (escaped.save p : Script RenderFault Unit).Returns .narrow t () t') ↔
      t.HasRoom .narrow p) ∧ _ :=
    (loadGrammar_save (show escaped.name = .text _ from rfl)).2 (by decide +kernel) .narrow
      (by decide) t p
  obtain ⟨t', hreturns⟩ := hsaved.1.mpr hroom
  exact ⟨rfl, t', hreturns, (hsaved.2 () t' hreturns .narrow (by decide)).1⟩

end LSystem
end VoxelCurve
