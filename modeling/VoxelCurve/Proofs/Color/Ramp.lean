import VoxelCurve.Color.Ramp
import VoxelCurve.Proofs.Vox.Scan

/-!
Ramps keep an alpha that all stops share.

Between two stops of one alpha the slope is zero, or no number where the knots meet.  Times a
distance it stays that, so going forward from the first stop gives its alpha again or no number,
and in the latter case the ramp looks for itself whether the two alphas agree.  No rounding comes
into this, wherever the knots are.  The alpha one is the byte 255, so every color of the rainbow is
opaque, of however many colors it is.
-/

namespace VoxelCurve

open Float.Model (UnpackedFloat)

namespace Ramp

/-- The slope of a line that keeps its height: zero of either sign, or no number. -/
def Level (x : Float) : Prop :=
  (∃ sign, x.toModel.unpack = .zero sign) ∨ x.toModel.unpack = .notANumber

/-- What an operation gives is level if it is so before it is packed. -/
theorem level_of_pack {x : Float} {u : UnpackedFloat} (hx : x.toModel = .pack u)
    (hu : (∃ sign, u = .zero sign) ∨ u = .notANumber) : Level x := by
  unfold Level
  rw [hx]
  obtain ⟨sign, rfl⟩ | rfl := hu
  · left
    cases sign with
    | positive => exact ⟨.positive, rfl⟩
    | negative => exact ⟨.negative, rfl⟩
  · right
    rfl

theorem Level.div {x : Float} (h : Level x) (y : Float) : Level (x / y) := by
  refine level_of_pack (u := .div .binary64 x.toModel.unpack y.toModel.unpack) rfl ?_
  obtain ⟨sign, h⟩ | h := h
  · rw [h]
    cases y.toModel.unpack with
    | infinity _ | finite _ _ _ _ => exact .inl ⟨_, rfl⟩
    | notANumber | zero _ => exact .inr rfl
  · rw [h]
    exact .inr rfl

theorem Level.mul {x : Float} (h : Level x) (y : Float) : Level (x * y) := by
  refine level_of_pack (u := .mul .binary64 x.toModel.unpack y.toModel.unpack) rfl ?_
  obtain ⟨sign, h⟩ | h := h
  · rw [h]
    cases y.toModel.unpack with
    | finite _ _ _ _ | zero _ => exact .inl ⟨_, rfl⟩
    | notANumber | infinity _ => exact .inr rfl
  · rw [h]
    exact .inr rfl

/-- A level line through one stays at one, or is lost. -/
theorem Level.add_one {x : Float} (h : Level x) : x + 1.0 = 1.0 ∨ (x + 1.0).isNaN = true := by
  have hsum : x + 1.0 =
      .ofModel (.pack (.add .binary64 x.toModel.unpack (1.0 : Float).toModel.unpack)) := rfl
  rw [hsum]
  obtain ⟨sign, h⟩ | h := h
  · left
    rw [h]
    rfl
  · right
    rw [h]
    rfl

theorem between_one (k₀ k₁ t : Float) : between k₀ 1.0 k₁ 1.0 t = 1.0 := by
  have hslope : Level ((1.0 - 1.0) / (k₁ - k₀)) :=
    Level.div (.inl ⟨.positive, rfl⟩) (k₁ - k₀)
  have hforward := (hslope.mul (t - k₀)).add_one
  have hbackward := (hslope.mul (t - k₁)).add_one
  have hself : ((1.0 : Float) == 1.0) = true := rfl
  have hnumber : (1.0 : Float).isNaN = false := rfl
  unfold between
  rcases hforward with hforward | hforward
  · simp only [hforward, hnumber, Bool.false_eq_true, if_false]
  · rcases hbackward with hbackward | hbackward
    · simp only [hforward, hbackward, hnumber, Bool.false_and, Bool.false_eq_true, if_false,
        if_true]
    · simp only [hforward, hbackward, hself, Bool.true_and, if_true]

theorem interpolate_one (t : Float) {knots : List (Float × Float)} (hne : knots ≠ [])
    (h : ∀ knot ∈ knots, knot.2 = 1.0) : interpolate t knots = 1.0 := by
  induction knots with
  | nil => exact absurd rfl hne
  | cons first rest ih =>
    obtain ⟨k₀, v₀⟩ := first
    obtain ⟨hfirst, hrest⟩ := List.forall_mem_cons.mp h
    obtain rfl : v₀ = 1.0 := hfirst
    cases rest with
    | nil => rfl
    | cons second rest =>
      obtain ⟨k₁, v₁⟩ := second
      obtain rfl : v₁ = 1.0 := hrest _ List.mem_cons_self
      unfold interpolate
      split
      · exact ih (List.cons_ne_nil _ _) hrest
      · split
        · rfl
        · exact between_one k₀ k₁ t

theorem alpha_ofBytes (r g b a : UInt8) : (Rgba.ofBytes r g b a).alpha = a :=
  rfl

/-- Stops of alpha one make a ramp of opaque colors. -/
theorem alpha_of_mem_colors {stops : List Stop} (hne : stops ≠ [])
    (h : ∀ stop ∈ stops, stop[(3 : Fin 4)] = 1.0) {n : Nat} {r : Rgba} (hr : r ∈ colors stops n) :
    r.alpha = 255 := by
  obtain ⟨t, -, rfl⟩ := List.mem_map.mp hr
  have hknots :
      ∀ knot ∈ (evenSteps stops.length).zip (stops.map (·[(3 : Fin 4)])), knot.2 = 1.0 := by
    intro knot hknot
    obtain ⟨stop, hstop, heq⟩ := List.mem_map.mp (List.of_mem_zip hknot).2
    rw [← heq]
    exact h stop hstop
  have hsome : (evenSteps stops.length).zip (stops.map (·[(3 : Fin 4)])) ≠ [] := by
    have hpos := List.length_pos_iff.mpr hne
    refine List.ne_nil_of_length_pos ?_
    rw [List.length_zip, evenSteps, List.length_map, List.length_map, List.length_range]
    omega
  have hone : byte 1.0 = 255 := by decide +kernel
  rw [colorAt, alpha_ofBytes]
  exact (congrArg byte (interpolate_one t hsome hknots)).trans hone

theorem alpha_of_mem_rainbow {n : Nat} {r : Rgba} (h : r ∈ rainbow n) : r.alpha = 255 := by
  refine alpha_of_mem_colors (List.cons_ne_nil _ _) ?_ h
  simp only [List.forall_mem_cons]
  exact ⟨rfl, rfl, rfl, rfl, rfl, rfl, rfl, List.forall_mem_nil _⟩

end Ramp
end VoxelCurve
