import VoxelCurve.Proofs.Json.Proper
import VoxelCurve.Proofs.Run.Script

/-!
Documents that a machine can write.

Three things stop the writing of a piece: it stands too deep, it is a number of too many digits, or
no bytes stand for its text.  The last is about texts alone and settled by what the document is made
of.  The other two are what the limits of the reader are about, so a document is written by a
machine that goes so deep exactly if it is within these limits and all its texts have bytes.
-/

namespace VoxelCurve
namespace Json

open Text (Piece)

/-- Whether a piece stands no deeper than a limit, and is no number of too many digits. -/
structure Fits (limit : Nat) (p : Piece) : Prop where
  depth : p.depth ≤ limit
  isWritable : p.isWritable = true

section Fits

variable {limit depth room : Nat}

theorem fits_iff {chars : List Char} {isWritable : Bool} :
    Fits limit ⟨depth, chars, isWritable⟩ ↔ depth ≤ limit ∧ isWritable = true :=
  ⟨fun h => ⟨h.depth, h.isWritable⟩, fun h => ⟨h.1, h.2⟩⟩

theorem fits_plain_iff {chars : List Char} : Fits limit (.plain depth chars) ↔ depth ≤ limit := by
  rw [Piece.plain, fits_iff, and_iff_left rfl]

theorem forall_fits_map_plain_iff {parts : List (List Char)} (hne : parts ≠ []) :
    (∀ p ∈ parts.map (.plain depth), Fits limit p) ↔ depth ≤ limit := by
  obtain ⟨chars, parts, rfl⟩ := List.exists_cons_of_ne_nil hne
  simp only [List.forall_mem_map, fits_plain_iff]
  exact ⟨fun h => h chars List.mem_cons_self, fun h _ _ => h⟩

/-- What is put before a value is as deep as the first piece, so it takes nothing away. -/
theorem forall_fits_putBefore_iff {start : Piece} (hstart : Fits limit start) (v : Value)
    (ps : List Piece) :
    (∀ p ∈ putBefore start v ps, Fits limit p) ↔ ∀ p ∈ ps, Fits limit p := by
  unfold putBefore
  split
  · simp only [List.forall_mem_cons, hstart, true_and]
  · simp only [List.forall_mem_cons, hstart, true_and]
  · next first rest _ _ =>
    have hfirst : Fits limit { first with chars := start.chars ++ first.chars } ↔
        Fits limit first := ⟨fun h => ⟨h.1, h.2⟩, fun h => ⟨h.1, h.2⟩⟩
    simp only [List.forall_mem_cons, hfirst]
  · simp only [List.forall_mem_singleton, hstart, List.not_mem_nil, false_imp_iff, implies_true]

theorem not_bounded_zero_list {items : List Value} : ¬Bounded 0 (.list items) :=
  fun h => nomatch h

theorem not_bounded_zero_object {fields : Fields} : ¬Bounded 0 (.object fields) :=
  fun h => nomatch h

mutual

/-- The pieces of a value fit into what is left of a limit exactly if the value does. -/
theorem forall_fits_pieces_iff (depth room : Nat) :
    (v : Value) → ((∀ p ∈ pieces depth v, Fits (depth + room) p) ↔ Bounded room v)
  | .null => by
    simp only [pieces, List.forall_mem_singleton, fits_plain_iff]
    exact ⟨fun _ => .null, fun _ => Nat.le_add_right _ _⟩
  | .bool _ => by
    simp only [pieces, List.forall_mem_singleton, fits_plain_iff]
    exact ⟨fun _ => .bool, fun _ => Nat.le_add_right _ _⟩
  | .int _ => by
    simp only [pieces, List.forall_mem_singleton, bounded_int_iff, fits_iff, Nat.le_add_right,
      true_and]
  | .float _ => by
    simp only [pieces, List.forall_mem_singleton, fits_plain_iff]
    exact ⟨fun _ => .float, fun _ => Nat.le_add_right _ _⟩
  | .text _ => by
    simp only [pieces, List.forall_mem_singleton, fits_plain_iff]
    exact ⟨fun _ => .text, fun _ => Nat.le_add_right _ _⟩
  | .list [] => by
    simp only [pieces, List.forall_mem_singleton, fits_plain_iff]
    cases room with
    | zero => simp [not_bounded_zero_list]
    | succ room => simp [bounded_list_iff]
  | .list (v :: rest) => by
    cases room with
    | zero =>
      refine iff_of_false (fun h => ?_) not_bounded_zero_list
      rw [pieces] at h
      have hclose := (List.forall_mem_append.mp h).2
      rw [forall_fits_map_plain_iff (List.cons_ne_nil _ _)] at hclose
      exact Nat.not_succ_le_self _ hclose
    | succ room =>
      have hlimit : depth + (room + 1) = depth + 1 + room := by omega
      have hroom : depth + 1 ≤ depth + 1 + room := Nat.le_add_right _ _
      have hopen : Fits (depth + 1 + room) (.plain (depth + 1) ('[' :: newline (depth + 1))) :=
        fits_plain_iff.mpr hroom
      rw [pieces, hlimit, bounded_list_iff, List.forall_mem_cons,
        List.forall_mem_append, List.forall_mem_append, forall_fits_putBefore_iff hopen,
        forall_fits_pieces_iff, forall_fits_itemPieces_iff,
        forall_fits_map_plain_iff (List.cons_ne_nil _ _), and_iff_left hroom]
  | .object [] => by
    simp only [pieces, List.forall_mem_singleton, fits_plain_iff]
    cases room with
    | zero => simp [not_bounded_zero_object]
    | succ room => simp [bounded_object_iff]
  | .object ((name, v) :: rest) => by
    cases room with
    | zero =>
      refine iff_of_false (fun h => ?_) not_bounded_zero_object
      rw [pieces] at h
      have hclose := (List.forall_mem_append.mp h).2
      rw [forall_fits_map_plain_iff (List.cons_ne_nil _ _)] at hclose
      exact Nat.not_succ_le_self _ hclose
    | succ room =>
      have hlimit : depth + (room + 1) = depth + 1 + room := by omega
      have hroom : depth + 1 ≤ depth + 1 + room := Nat.le_add_right _ _
      rw [pieces, hlimit, bounded_object_iff, List.forall_mem_cons,
        List.forall_mem_append, List.forall_mem_append, List.forall_mem_append,
        forall_fits_map_plain_iff (List.cons_ne_nil _ _), and_iff_right hroom,
        forall_fits_pieces_iff, forall_fits_fieldPieces_iff,
        forall_fits_map_plain_iff (List.cons_ne_nil _ _), and_iff_left hroom]

theorem forall_fits_itemPieces_iff (depth room : Nat) :
    (items : List Value) →
      ((∀ p ∈ itemPieces depth items, Fits (depth + room) p) ↔ ∀ v ∈ items, Bounded room v)
  | [] => by simp [itemPieces]
  | v :: rest => by
    have hstart : Fits (depth + room) (.plain depth (',' :: newline depth)) :=
      fits_plain_iff.mpr (Nat.le_add_right depth room)
    rw [itemPieces, List.forall_mem_append, List.forall_mem_cons, forall_fits_putBefore_iff hstart,
      forall_fits_pieces_iff, forall_fits_itemPieces_iff]

theorem forall_fits_fieldPieces_iff (depth room : Nat) :
    (fields : List (String × Value)) →
      ((∀ p ∈ fieldPieces depth fields, Fits (depth + room) p) ↔ ∀ f ∈ fields, Bounded room f.2)
  | [] => by simp [fieldPieces]
  | (name, v) :: rest => by
    rw [fieldPieces, List.forall_mem_append, List.forall_mem_append, List.forall_mem_cons,
      forall_fits_map_plain_iff (List.cons_ne_nil _ _), and_iff_right (Nat.le_add_right depth room),
      forall_fits_pieces_iff, forall_fits_fieldPieces_iff]

end

end Fits

/-! ## Documents -/

/-- Whether a machine can write a document, down to its last piece. -/
def Writes (m : Machine) (v : Value) : Prop :=
  ∀ p ∈ pieces 0 v, p.fault? m = none

variable {m : Machine} {v : Value}

theorem writes_iff :
    Writes m v ↔
      Bounded m.writingDepth v ∧ (printedPieces v).all Text.isEncodable = true := by
  have hfits := forall_fits_pieces_iff 0 m.writingDepth v
  rw [Nat.zero_add] at hfits
  rw [← hfits, Writes, List.all_eq_true, printedPieces, List.forall_mem_map]
  constructor
  · intro h
    refine ⟨fun p hp => ?_, fun p hp => ?_⟩
    · obtain ⟨hdepth, hnumber, -⟩ := Piece.fault?_eq_none_iff.mp (h p hp)
      exact ⟨hdepth, hnumber⟩
    · exact (Piece.fault?_eq_none_iff.mp (h p hp)).2.2
  · rintro ⟨hlimits, hbytes⟩ p hp
    exact Piece.fault?_eq_none_iff.mpr ⟨(hlimits p hp).1, (hlimits p hp).2, hbytes p hp⟩

theorem Legible.writes (h : Legible m.writingDepth v)
    (hencodable : (printedPieces v).all Text.isEncodable = true) : Writes m v :=
  writes_iff.mpr ⟨h.bounded, hencodable⟩

theorem Durable.writes {depth : Nat} (h : Durable depth v) (hdepth : depth ≤ m.writingDepth) :
    Writes m v :=
  writes_iff.mpr ⟨h.bounded.mono hdepth, h.proper.encodable⟩

end Json
end VoxelCurve
