import VoxelCurve.Proofs.Turtle.Drawing

/-!
What a gradient leaves behind.

A gradient is refused without a trace if there are too few paints for the line, or if one of those
that it needs is no color.  Otherwise the turtle goes to the end of the line, and the points take
their colors one after the other up to the first that cannot.  This needs a cell in the lowest
plane and a color that can be stored, so a line of such colors is drawn to its end exactly when
both ends are on the canvas.  Drawing with one color is a gradient of that color alone.
-/

namespace VoxelCurve
namespace Turtle

/-- What painting the first `n` of some pairs makes of a canvas: they could be painted, each point
shows its own color at the bottom, and the rest is as it was. -/
structure PaintedUpTo (pairs : List (Point × Color)) (n : Nat) (b b' : Canvas) : Prop where
  extent : b'.extent = b.extent
  takes : ∀ pair ∈ pairs.take n, Takes b.extent pair
  shown : ∀ pair ∈ pairs.take n, ∃ r, pair.2.record = .ok r ∧ b'.get pair.1.x pair.1.y 0 = .ok r
  kept : ∀ x y z, (z = 0 → ∀ pair ∈ pairs.take n, pair.1 ≠ ⟨x, y⟩) → b'.get x y z = b.get x y z

section Layer

variable {pairs : List (Point × Color)} {b b' : Canvas} (h : Layer pairs b b')

include h

theorem Layer.get_of_mem (hnodup : (pairs.map Prod.fst).Nodup) {p : Point} {c : Color}
    (hmem : (p, c) ∈ pairs) (hp : b.extent.Holds p ∧ 0 < b.extent.height) :
    ∃ r, c.record = .ok r ∧ b'.get p.x p.y 0 = .ok r := by
  have hcell := hp.1.contains hp.2
  obtain ⟨⟨⟨hx, -⟩, ⟨hy, -⟩⟩, -⟩ := hp
  have hpoint : Cell.point ⟨p.x.toNat, p.y.toNat, 0⟩ = p := by
    simp only [Cell.point, Int.toNat_of_nonneg hx, Int.toNat_of_nonneg hy]
  obtain ⟨c', hc', hrecord⟩ :=
    h.painted _ hcell ⟨rfl, hpoint.symm ▸ List.mem_map_of_mem hmem⟩
  rw [hpoint] at hc'
  -- the point stands in one pair only, so what it shows is its own color
  have hsame := List.inj_on_of_nodup_map hnodup hc' hmem rfl
  cases hsame
  refine ⟨_, hrecord, ?_⟩
  rw [Buffer.get_eq, if_pos ⟨⟨hx, hy, Int.le_refl 0⟩, h.extent ▸ hcell⟩]
  rfl

theorem Layer.get_of_not_mem {x y z : Int} (hmem : z = 0 → ∀ pair ∈ pairs, pair.1 ≠ ⟨x, y⟩) :
    b'.get x y z = b.get x y z := by
  rw [Buffer.get_eq, Buffer.get_eq, h.extent]
  by_cases hin : (0 ≤ x ∧ 0 ≤ y ∧ 0 ≤ z) ∧ b.extent.Contains ⟨x.toNat, y.toNat, z.toNat⟩
  · rw [if_pos hin, if_pos hin]
    refine congrArg Except.ok (h.kept _ hin.2 ?_)
    intro hcovered
    obtain ⟨hz, hpoint⟩ := hcovered
    obtain ⟨pair, hpair, hfst⟩ := List.mem_map.mp hpoint
    obtain ⟨⟨hx, hy, hz'⟩, -⟩ := hin
    have hz : z.toNat = 0 := hz
    refine hmem (by omega) pair hpair (hfst.trans ?_)
    simp only [Cell.point, Int.toNat_of_nonneg hx, Int.toNat_of_nonneg hy]
  · rw [if_neg hin, if_neg hin]

end Layer

/-- Points that are all apart are painted with their own colors up to the first that cannot be. -/
theorem paintPoints_upTo {pairs : List (Point × Color)} (hnodup : (pairs.map Prod.fst).Nodup)
    (b : Canvas) :
    ∃ n b', PaintedUpTo pairs n b b' ∧
      (n = pairs.length ∧ paintPoints pairs b = (none, b') ∨
        ∃ pair fault, pairs[n]? = some pair ∧ ¬Takes b.extent pair ∧
          pointEdit b pair.1 pair.2 = .error fault ∧ paintPoints pairs b = (some fault, b')) := by
  obtain ⟨n, b', hlayer, htakes, hend⟩ := paintPoints_layer pairs b
  refine ⟨n, b', ⟨hlayer.extent, htakes, ?_, fun x y z => hlayer.get_of_not_mem⟩, hend⟩
  have hsome : ((pairs.take n).map Prod.fst).Nodup := by
    rw [List.map_take]
    exact hnodup.sublist (List.take_sublist _ _)
  exact fun pair hpair => hlayer.get_of_mem hsome hpair (htakes pair hpair).1

/-! ## Gradients -/

theorem destination_of_step {t : Turtle} {distance : Value} {q : Point}
    (h : t.step distance = ⟨none, t.moveTo q⟩) : t.destination distance = .ok q := by
  unfold step at h
  cases hdest : t.destination distance with
  | error fault =>
    rw [hdest] at h
    cases h
  | ok p =>
    rw [hdest] at h
    have hturtle := congrArg Outcome.turtle h
    have hx : p.x = q.x := congrArg Turtle.x hturtle
    have hy : p.y = q.y := congrArg Turtle.y hturtle
    obtain ⟨px, py⟩ := p
    obtain ⟨qx, qy⟩ := q
    rw [show px = qx from hx, show py = qy from hy]

section Pairs

variable {start stop : Point} {paints : List Paint} {colors : List Color}
  (h : Line.distance start stop + 1 ≤ paints.length)
  (hcolors : List.Forall₂ (fun paint c => paint.toColor = .ok c)
    (paints.take (Line.distance start stop + 1)) colors)

include h hcolors

theorem map_fst_zip_colors :
    ((Line.points start stop).zip colors).map Prod.fst = Line.points start stop := by
  have hlength := hcolors.length_eq
  rw [List.length_take] at hlength
  exact List.map_fst_zip (by rw [Line.length_points]; omega)

theorem length_zip_colors :
    ((Line.points start stop).zip colors).length = Line.distance start stop + 1 := by
  rw [← List.length_map Prod.fst, map_fst_zip_colors h hcolors, Line.length_points]

end Pairs

section Gradient

variable {t : Turtle} {distance : Value} {q : Point} (hq : t.destination distance = .ok q)

include hq

theorem drawGradient_of_few {paints : List Paint}
    (h : paints.length < Line.distance t.position q + 1) :
    t.drawGradient distance paints =
      ⟨some (.fewColors paints.length (Line.distance t.position q + 1)), t⟩ := by
  rw [drawGradient, trace_of_destination hq]
  simp only [Line.length_points, if_pos h]

/-- With enough paints the line is painted as soon as those that it needs are colors. -/
theorem drawGradient_eq {paints : List Paint}
    (h : Line.distance t.position q + 1 ≤ paints.length) :
    t.drawGradient distance paints =
      match (paints.take (Line.distance t.position q + 1)).mapM Paint.toColor with
      | .error fault => ⟨some (.paint fault), t⟩
      | .ok colors =>
        let painted := paintPoints ((Line.points t.position q).zip colors) t.canvas
        ⟨painted.1.map .canvas, (t.moveTo q).onto painted.2⟩ := by
  rw [drawGradient, trace_of_destination hq]
  simp only [Line.length_points, if_neg (Nat.not_lt.mpr h)]
  cases (paints.take (Line.distance t.position q + 1)).mapM Paint.toColor with
  | error fault => rfl
  | ok colors => exact t.paint_points q colors

theorem drawGradient_of_unfit {paints : List Paint}
    (h : Line.distance t.position q + 1 ≤ paints.length)
    (hunfit : ∃ paint ∈ paints.take (Line.distance t.position q + 1),
      ∃ fault, paint.toColor = .error fault) :
    ∃ fault, t.drawGradient distance paints = ⟨some (.paint fault), t⟩ := by
  obtain ⟨fault, hfault⟩ := exists_mapM_eq_error hunfit
  rw [drawGradient_eq hq h, hfault]
  exact ⟨fault, rfl⟩

theorem drawGradient_take_append {paints : List Paint}
    (h : Line.distance t.position q + 1 ≤ paints.length) (others : List Paint) :
    t.drawGradient distance (paints.take (Line.distance t.position q + 1) ++ others) =
      t.drawGradient distance paints := by
  have hlength : (paints.take (Line.distance t.position q + 1)).length =
      Line.distance t.position q + 1 := by
    rw [List.length_take]
    omega
  rw [drawGradient_eq hq h, drawGradient_eq hq (by rw [List.length_append]; omega),
    List.take_append_of_le_length (by omega), List.take_of_length_le (by omega)]

theorem drawWith_eq_drawGradient (paint : Paint) {n : Nat}
    (hn : Line.distance t.position q + 1 ≤ n) :
    t.drawWith distance paint = t.drawGradient distance (List.replicate n paint) := by
  rw [drawGradient_eq hq (by rwa [List.length_replicate]), List.take_replicate, Nat.min_eq_left hn]
  cases hpaint : paint.toColor with
  | error fault =>
    rw [drawWith, trace_of_destination hq, hpaint, List.replicate_succ, List.mapM_cons, hpaint]
    rfl
  | ok c =>
    have hcolors : (List.replicate (Line.distance t.position q + 1) paint).mapM Paint.toColor =
        .ok (List.replicate (Line.distance t.position q + 1) c) := by
      rw [mapM_eq_ok_iff, ← List.map_replicate (f := fun _ => c), List.forall₂_map_right_iff,
        List.forall₂_same]
      intro paint' hpaint'
      rw [List.eq_of_mem_replicate hpaint', hpaint]
    simp only [drawWith_eq hq hpaint, hcolors, Line.length_points]

section Colors

variable {paints : List Paint} {colors : List Color}
  (h : Line.distance t.position q + 1 ≤ paints.length)
  (hcolors : List.Forall₂ (fun paint c => paint.toColor = .ok c)
    (paints.take (Line.distance t.position q + 1)) colors)

include h hcolors

/-- Points and colors are painted up to the first pair that cannot be. -/
theorem drawGradient_upTo :
    ∃ n b, PaintedUpTo ((Line.points t.position q).zip colors) n t.canvas b ∧
      (n = Line.distance t.position q + 1 ∧
          t.drawGradient distance paints = ⟨none, (t.moveTo q).onto b⟩ ∨
        ∃ pair fault, ((Line.points t.position q).zip colors)[n]? = some pair ∧
          ¬Takes t.canvas.extent pair ∧ pointEdit t.canvas pair.1 pair.2 = .error fault ∧
          t.drawGradient distance paints = ⟨some (.canvas fault), (t.moveTo q).onto b⟩) := by
  have hfst := map_fst_zip_colors h hcolors
  obtain ⟨n, b, hpainted, hend⟩ :=
    paintPoints_upTo (hfst.symm ▸ Line.nodup_points t.position q) t.canvas
  refine ⟨n, b, hpainted, ?_⟩
  rw [drawGradient_eq hq h, mapM_eq_ok_iff.mpr hcolors]
  rcases hend with ⟨hn, hpaint⟩ | ⟨pair, fault, hpair, hnot, hedit, hpaint⟩
  · exact .inl ⟨hn.trans (length_zip_colors h hcolors), by simp only [hpaint]; rfl⟩
  · exact .inr ⟨pair, fault, hpair, hnot, hedit, by simp only [hpaint]; rfl⟩

/-- Colors that can be stored are drawn to the end if both ends of the line are on the canvas. -/
theorem drawGradient_succeeds_iff (hencodable : ∀ c ∈ colors, c.Encodable) :
    (t.drawGradient distance paints).fault? = none ↔
      (t.canvas.extent.Holds t.position ∧ t.canvas.extent.Holds q) ∧
        0 < t.canvas.extent.height := by
  have hfst := map_fst_zip_colors h hcolors
  obtain ⟨n, b, hpainted, ⟨hn, hdraw⟩ | ⟨⟨p, c⟩, fault, hpair, hnot, -, hdraw⟩⟩ :=
    drawGradient_upTo hq h hcolors
  · have htakes : ∀ p ∈ Line.points t.position q,
        t.canvas.extent.Holds p ∧ 0 < t.canvas.extent.height := by
      intro p hp
      rw [← hfst] at hp
      obtain ⟨pair, hpair, rfl⟩ := List.mem_map.mp hp
      refine (hpainted.takes pair ?_).1
      rwa [List.take_of_length_le]
      rw [hn, length_zip_colors h hcolors]
    refine iff_of_true (by rw [hdraw]) ⟨?_, (htakes _ (Line.start_mem_points _ _)).2⟩
    exact Extent.holds_points_iff.mp fun p hp => (htakes p hp).1
  · refine iff_of_false (by rw [hdraw]; exact Option.some_ne_none _) ?_
    intro hends
    obtain ⟨hp, hc⟩ := List.of_mem_zip (List.mem_of_getElem? hpair)
    exact hnot ⟨⟨Extent.holds_points_iff.mpr hends.1 p hp, hends.2⟩, hencodable c hc⟩

end Colors
end Gradient

/-- The exact effect of a gradient along the way to where a step leads.  It is refused and leaves
the turtle and the canvas alone, or the turtle is where the step leads, and the points of the line
have their colors up to the first pair that cannot be painted, which is the fault that remains.
Drawing with one paint is the case of a constant gradient. -/
theorem drawGradient_exact {t : Turtle} {distance : Value} {q : Point}
    (hstep : t.step distance = ⟨none, t.moveTo q⟩) (paints : List Paint) :
    let a := Line.distance t.position q
    let points := Line.points t.position q
    let e := t.canvas.extent
    let outcome := t.drawGradient distance paints
    (paints.length < a + 1 → outcome = ⟨some (.fewColors paints.length (a + 1)), t⟩) ∧
    (a + 1 ≤ paints.length →
      ((∃ paint ∈ paints.take (a + 1), ∃ fault, paint.toColor = .error fault) →
        ∃ fault, outcome = ⟨some (.paint fault), t⟩) ∧
      (∀ colors,
        List.Forall₂ (fun paint c => paint.toColor = .ok c) (paints.take (a + 1)) colors →
        (∃ n b, PaintedUpTo (points.zip colors) n t.canvas b ∧
          (n = a + 1 ∧ outcome = ⟨none, (t.moveTo q).onto b⟩ ∨
            ∃ pair fault, (points.zip colors)[n]? = some pair ∧ ¬Takes e pair ∧
              pointEdit t.canvas pair.1 pair.2 = .error fault ∧
              outcome = ⟨some (.canvas fault), (t.moveTo q).onto b⟩)) ∧
        ((∀ c ∈ colors, c.Encodable) →
          (outcome.fault? = none ↔ (e.Holds t.position ∧ e.Holds q) ∧ 0 < e.height))) ∧
      ∀ others, t.drawGradient distance (paints.take (a + 1) ++ others) = outcome) ∧
    (∀ paint n, a + 1 ≤ n →
      t.drawWith distance paint = t.drawGradient distance (List.replicate n paint)) ∧
    t.draw distance = t.drawGradient distance (List.replicate (a + 1) (.color t.color)) := by
  have hq := destination_of_step hstep
  refine ⟨drawGradient_of_few hq, ?_, fun paint n => drawWith_eq_drawGradient hq paint,
    drawWith_eq_drawGradient hq _ (Nat.le_refl _)⟩
  intro h
  refine ⟨drawGradient_of_unfit hq h, ?_, drawGradient_take_append hq h⟩
  intro colors hcolors
  exact ⟨drawGradient_upTo hq h hcolors, drawGradient_succeeds_iff hq h hcolors⟩

end Turtle

/-- A compass that tells two ways apart, east for no turn and north for a quarter of one.  For these
it gives what the library of floats does, and what is drawn by it can be computed. -/
def Compass.twoWay : Compass where
  cosine x := if x == 0.0 then 1.0 else 6.123233995736766e-17
  sine x := if x == 0.0 then 0.0 else 1.0

namespace Turtle

/-- A turtle at the western end of a row of three cells. -/
def rowTurtle : Turtle :=
  onCanvas .twoWay ⟨⟨3, 1, 1⟩, ∅⟩

/-- Three colors for the row, the second of which cannot be stored. -/
def unevenColors : List Color :=
  [black, Color.ofInts 256 0 0 255, black]

/-- The turtle goes to the eastern end of the row and paints its first cell only. -/
theorem drawGradient_exact_uneven :
    ¬(Color.ofInts 256 0 0 255).Encodable ∧ ∃ fault b,
      rowTurtle.drawGradient (.float 2.0) (unevenColors.map .color) =
        ⟨some (.canvas fault), (rowTurtle.moveTo ⟨2, 0⟩).onto b⟩ ∧
      b.get 0 0 0 = .ok (Rgba.ofBytes 0 0 0 255) ∧
      ∀ x y z, (x, y, z) ≠ (0, 0, 0) → b.get x y z = rowTurtle.canvas.get x y z := by
  have hnot : ¬(Color.ofInts 256 0 0 255).Encodable := by
    intro h
    obtain ⟨n, hn, -, hle⟩ := h (.int 256) List.mem_cons_self
    cases hn
    omega
  refine ⟨hnot, ?_⟩
  have hdestination : rowTurtle.destination (.float 2.0) = .ok ⟨2, 0⟩ := by decide +kernel
  have hstep : rowTurtle.step (.float 2.0) = ⟨none, rowTurtle.moveTo ⟨2, 0⟩⟩ := by
    rw [step, hdestination]
  have hpoints : Line.points rowTurtle.position ⟨2, 0⟩ = [⟨0, 0⟩, ⟨1, 0⟩, ⟨2, 0⟩] := by decide
  obtain ⟨-, hgradient, -⟩ := drawGradient_exact hstep (unevenColors.map .color)
  obtain ⟨-, hcolors, -⟩ := hgradient (by decide)
  obtain ⟨⟨n, b, hpainted, hend⟩, -⟩ := hcolors unevenColors (mapM_eq_ok_iff.mp rfl)
  rw [hpoints] at hpainted hend
  -- the second color stops the painting, and nothing stops it before
  have hle : n ≤ 1 := by
    by_contra hgt
    obtain ⟨m, rfl⟩ : ∃ m, n = m + 2 := ⟨n - 2, by omega⟩
    exact hnot (hpainted.takes (⟨1, 0⟩, _) (List.mem_cons_of_mem _ List.mem_cons_self)).2
  have hfirst : Takes rowTurtle.canvas.extent (⟨0, 0⟩, black) :=
    ⟨by decide, Color.exists_record_iff.mp ⟨_, rfl⟩⟩
  rcases hend with ⟨hn, -⟩ | ⟨pair, fault, hpair, hstop, -, hdraw⟩
  · have hlong : n = 3 := hn
    omega
  obtain rfl : n = 1 := by
    by_contra hne
    obtain rfl : n = 0 := by omega
    cases hpair
    exact hstop hfirst
  refine ⟨fault, b, hdraw, ?_, ?_⟩
  · obtain ⟨r, hr, hget⟩ := hpainted.shown (⟨0, 0⟩, black) List.mem_cons_self
    cases hr
    exact hget
  · intro x y z hne
    refine hpainted.kept x y z ?_
    rintro rfl pair hpair heq
    obtain rfl := List.mem_singleton.mp hpair
    cases heq
    exact hne rfl

end Turtle
end VoxelCurve
