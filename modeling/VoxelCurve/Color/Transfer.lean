import VoxelCurve.Color.Tensor

/-!
The transfer function of sRGB, which makes linear light even to the eye, and its inverse.

Near zero it is a straight line, above that a power.  Values are first brought into the
interval from zero to one; the one that is no number stays what it is.
-/

namespace VoxelCurve
namespace Transfer

/-- The nearest value between zero and one. -/
def clamp (x : Float) : Float :=
  if x < 0.0 then 0.0 else if x > 1.0 then 1.0 else x

/-- From linear light to sRGB. -/
def encode (x : Float) : Float :=
  let v := clamp x
  if v ≤ 0.0031308 then v * 12.92 else 1.055 * v.pow (1.0 / 2.4) - 0.055

/-- From sRGB to linear light. -/
def decode (x : Float) : Float :=
  let v := clamp x
  if v ≤ 0.04045 then v / 12.92 else ((v + 0.055) / 1.055).pow 2.4

/-- From linear light to sRGB, for all of some nested numbers. -/
def encodeAll (v : Value) : Except TensorFault Tensor :=
  (Tensor.ofValue v).map fun t => t.2.map encode

/-- From sRGB to linear light, for all of some nested numbers. -/
def decodeAll (v : Value) : Except TensorFault Tensor :=
  (Tensor.ofValue v).map fun t => t.2.map decode

end Transfer
end VoxelCurve
