import VoxelCurve.Proofs.Json.Encodable
import VoxelCurve.Proofs.Json.Limits

/-!
Documents that come back as they were written.

Writing a value has to leave its parts apart: its texts need bytes, no name may stand twice in an
object, and a float needs a text that is read as that float.  A value of this kind is proper, and it
is read back if and only if it is within the limits of the reader.
-/

namespace VoxelCurve
namespace Json

open Text (Whole)

/-- Whether nothing of a value is lost when it is written. -/
inductive Proper : Value → Prop
  | null : Proper .null
  | bool {b : Bool} : Proper (.bool b)
  | int {n : Int} : Proper (.int n)
  | float {x : Float} (back : ReadsBack (.float x)) : Proper (.float x)
  | text {s : String} (whole : Whole s.toList) : Proper (.text s)
  | list {items : List Value} (each : ∀ v ∈ items, Proper v) : Proper (.list items)
  | object {fields : Fields} (apart : fields.names.Nodup)
    (names : ∀ f ∈ fields, Whole f.1.toList) (each : ∀ f ∈ fields, Proper f.2) :
    Proper (.object fields)

variable {v : Value}

theorem Proper.worded (h : Proper v) : Worded v := by
  induction h with
  | null => exact .null
  | bool => exact .bool
  | int => exact .int
  | float => exact .float
  | text whole => exact .text whole
  | list _ ih => exact .list ih
  | object _ names _ ih => exact .object names ih

theorem Proper.legible (h : Proper v) {depth : Nat} (hbounded : Bounded depth v) :
    Legible depth v := by
  induction h generalizing depth with
  | null => exact .null
  | bool => exact .bool
  | int =>
    cases hbounded with
    | int writable => exact .int (readsBack_int_iff.mpr writable)
  | float back => exact .float back
  | text => exact .text
  | list _ ih =>
    cases hbounded with
    | list each => exact .list fun v hv => ih v hv (each v hv)
  | object apart _ _ ih =>
    cases hbounded with
    | object each => exact .object apart fun f hf => ih f hf (each f hf)

theorem Legible.bounded {depth : Nat} (h : Legible depth v) : Bounded depth v := by
  induction h with
  | null => exact .null
  | bool => exact .bool
  | int back => exact .int (readsBack_int_iff.mp back)
  | float => exact .float
  | text => exact .text
  | list _ ih => exact .list ih
  | object _ _ ih => exact .object ih

theorem Proper.encodable (h : Proper v) : (printedPieces v).all Text.isEncodable = true :=
  h.worded.encodable

/-- Of the proper values, those within the limits of the reader are read back, and no others. -/
theorem Proper.readBytes_iff (h : Proper v) {depth : Nat} :
    readBytes depth ((printedPieces v).flatMap Text.utf8) = .ok v ↔ Bounded depth v :=
  ⟨bounded_of_readBytes, fun hbounded => (h.legible hbounded).readBytes h.encodable⟩

/-- Whether a value is proper and within the limits of a reader that goes so deep. -/
structure Durable (depth : Nat) (v : Value) : Prop where
  bounded : Bounded depth v
  proper : Proper v

theorem durable_null {depth : Nat} : Durable depth .null :=
  ⟨.null, .null⟩

theorem durable_text {depth : Nat} {s : String} (h : Whole s.toList) : Durable depth (.text s) :=
  ⟨.text, .text h⟩

theorem durable_int {depth : Nat} {n : Int} (h : Value.isWritable n = true) :
    Durable depth (.int n) :=
  ⟨.int h, .int⟩

theorem durable_list {depth : Nat} {items : List Value} (each : ∀ v ∈ items, Durable depth v) :
    Durable (depth + 1) (.list items) :=
  ⟨.list fun v hv => (each v hv).bounded, .list fun v hv => (each v hv).proper⟩

theorem durable_object {depth : Nat} {fields : Fields} (apart : fields.names.Nodup)
    (names : ∀ f ∈ fields, Whole f.1.toList) (each : ∀ f ∈ fields, Durable depth f.2) :
    Durable (depth + 1) (.object fields) :=
  ⟨.object fun f hf => (each f hf).bounded, .object apart names fun f hf => (each f hf).proper⟩

end Json
end VoxelCurve
