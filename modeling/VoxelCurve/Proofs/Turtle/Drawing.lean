import VoxelCurve.Proofs.Success
import VoxelCurve.Proofs.Turtle.Line
import VoxelCurve.Proofs.Volume.Buffer
import VoxelCurve.Turtle.Basic

/-!
What a single draw does to a canvas.

Points are painted one after the other, each with its own color, as far as the first that has no
cell or whose color cannot be stored; what has been painted by then is a layer on the canvas, and
the rest is as it was.  Since a line never leaves the rectangle of its ends, all of its points are
on the canvas as soon as both ends are.  So a draw with one color is settled by the two ends:
either each point of the lowest plane on the line takes the color and no other record changes, or
the draw ends with the first point that has no cell.
-/

namespace VoxelCurve

/-- The point that a cell stands above. -/
def Cell.point (c : Cell) : Point :=
  ⟨c.x, c.y⟩

/-- Whether a point lies below a box. -/
def Extent.Holds (e : Extent) (p : Point) : Prop :=
  (0 ≤ p.x ∧ p.x < e.width) ∧ (0 ≤ p.y ∧ p.y < e.depth)

instance (e : Extent) (p : Point) : Decidable (e.Holds p) :=
  inferInstanceAs (Decidable ((_ ∧ _) ∧ (_ ∧ _)))

/-- Whether all channels of a color are integers from 0 to 255. -/
def Color.Encodable (c : Color) : Prop :=
  ∀ v ∈ c.channels, ∃ n, v.index? = some n ∧ 0 ≤ n ∧ n ≤ 255

theorem Value.exists_byte_iff {v : Value} :
    (∃ b, v.byte = .ok b) ↔ ∃ n, v.index? = some n ∧ 0 ≤ n ∧ n ≤ 255 := by
  unfold byte
  cases v.index? with
  | none => simp only [reduceCtorEq, exists_false, false_and]
  | some n =>
    by_cases hn : 0 ≤ n ∧ n ≤ 255
    · simp [hn]
    · simp [hn]

/-- The colors that can be stored. -/
theorem Color.exists_record_iff {c : Color} : (∃ r, c.record = .ok r) ↔ c.Encodable := by
  simp only [Encodable, channels, List.forall_mem_cons, ← Value.exists_byte_iff]
  constructor
  · intro h
    obtain ⟨rec, hrec⟩ := h
    simp only [record, bind_eq_ok_iff] at hrec
    obtain ⟨r, hr, g, hg, b, hb, a, ha, -⟩ := hrec
    exact ⟨⟨r, hr⟩, ⟨g, hg⟩, ⟨b, hb⟩, ⟨a, ha⟩, List.forall_mem_nil _⟩
  · intro h
    obtain ⟨⟨r, hr⟩, ⟨g, hg⟩, ⟨b, hb⟩, ⟨a, ha⟩, -⟩ := h
    exact ⟨Rgba.ofBytes r g b a, by rw [record, hr, hg, hb, ha]; rfl⟩

/-- The color at a cell. -/
def Canvas.ink (b : Canvas) (c : Cell) : Rgba :=
  b.recordAt c

theorem Canvas.ink_empty (e : Extent) (c : Cell) : Canvas.ink ⟨e, ∅⟩ c = Record.blank 4 :=
  Buffer.recordAt_empty e c

theorem Canvas.ink_apply {b : Canvas} {c d : Cell} (hc : b.extent.Contains c)
    (hd : b.extent.Contains d) (r : Rgba) :
    Canvas.ink (b.apply ⟨⟨b.extent.index c, Extent.index_lt_count hc⟩, r⟩) d =
      if c = d then r else b.ink d :=
  Buffer.recordAt_apply hc hd r

theorem Extent.Holds.contains {e : Extent} {p : Point} (h : e.Holds p) (hheight : 0 < e.height) :
    e.Contains ⟨p.x.toNat, p.y.toNat, 0⟩ := by
  obtain ⟨⟨hx, hwidth⟩, ⟨hy, hdepth⟩⟩ := h
  exact ⟨by show p.x.toNat < _; omega, by show p.y.toNat < _; omega, hheight⟩

/-- A line is on a canvas exactly when its ends are. -/
theorem Extent.holds_points_iff {e : Extent} {start stop : Point} :
    (∀ p ∈ Line.points start stop, e.Holds p) ↔ e.Holds start ∧ e.Holds stop := by
  constructor
  · intro h
    exact ⟨h _ (Line.start_mem_points start stop), h _ (Line.stop_mem_points start stop)⟩
  · intro h p hp
    obtain ⟨hstart, hstop⟩ := h
    have hbetween := Line.between_of_mem_points hp
    unfold Holds at *
    omega

namespace Turtle

/-- The same turtle above another canvas. -/
def onto (t : Turtle) (b : Canvas) : Turtle :=
  { t with canvas := b }

/-- Whether a point can be painted with a color: there is a cell at it in the lowest plane, and the
color can be stored. -/
def Takes (e : Extent) (pair : Point × Color) : Prop :=
  (e.Holds pair.1 ∧ 0 < e.height) ∧ pair.2.Encodable

section Edit

variable {b : Canvas} {p : Point} {c : Color}

theorem pointEdit_of_error {fault : ByteFault} (hc : c.record = .error fault) (b : Canvas)
    (p : Point) : pointEdit b p c = .error (.voxel fault) := by
  rw [pointEdit, hc]
  rfl

variable {r : Rgba} (hr : c.record = .ok r)

include hr

theorem pointEdit_of_holds (hp : b.extent.Holds p ∧ 0 < b.extent.height) :
    ∃ h : b.extent.Contains ⟨p.x.toNat, p.y.toNat, 0⟩,
      pointEdit b p c = .ok ⟨⟨b.extent.index _, Extent.index_lt_count h⟩, r⟩ := by
  have hcell := hp.1.contains hp.2
  refine ⟨hcell, ?_⟩
  have hin : (0 ≤ p.x ∧ 0 ≤ p.y ∧ (0 : Int) ≤ 0) ∧
      b.extent.Contains ⟨p.x.toNat, p.y.toNat, Int.toNat 0⟩ :=
    ⟨⟨hp.1.1.1, hp.1.2.1, Int.le_refl 0⟩, hcell⟩
  rw [pointEdit, hr, Buffer.addressOf, Extent.address, dif_pos hin]
  rfl

theorem pointEdit_of_not_holds (hp : ¬(b.extent.Holds p ∧ 0 < b.extent.height)) :
    pointEdit b p c = .error (.address (.noCell p.x p.y 0 b.extent)) := by
  have hout : ¬((0 ≤ p.x ∧ 0 ≤ p.y ∧ (0 : Int) ≤ 0) ∧
      b.extent.Contains ⟨p.x.toNat, p.y.toNat, Int.toNat 0⟩) := by
    intro hin
    obtain ⟨⟨hx, hy, -⟩, ⟨hwidth, hdepth, hheight⟩⟩ := hin
    have hwidth : p.x.toNat < b.extent.width := hwidth
    have hdepth : p.y.toNat < b.extent.depth := hdepth
    exact hp ⟨⟨⟨hx, by omega⟩, ⟨hy, by omega⟩⟩, hheight⟩
  rw [pointEdit, hr, Buffer.addressOf, Extent.address, dif_neg hout]
  rfl

end Edit

/-! ## Layers of paint -/

/-- What painting makes of a canvas: in the lowest plane each of the points shows a color that it
was to be painted with, and the rest is as it was. -/
structure Layer (pairs : List (Point × Color)) (b b' : Canvas) : Prop where
  extent : b'.extent = b.extent
  painted : ∀ d, b.extent.Contains d → d.z = 0 ∧ d.point ∈ pairs.map Prod.fst →
    ∃ c, (d.point, c) ∈ pairs ∧ c.record = .ok (b'.ink d)
  kept : ∀ d, b.extent.Contains d → ¬(d.z = 0 ∧ d.point ∈ pairs.map Prod.fst) →
    b'.ink d = b.ink d

namespace Layer

theorem nil (b : Canvas) : Layer [] b b where
  extent := rfl
  painted _ _ h := absurd h.2 List.not_mem_nil
  kept _ _ _ := rfl

theorem cons {pairs : List (Point × Color)} {b b' : Canvas} {p : Point} {c : Color} {r : Rgba}
    (hr : c.record = .ok r) (hp : b.extent.Holds p)
    (hcell : b.extent.Contains ⟨p.x.toNat, p.y.toNat, 0⟩)
    (h : Layer pairs (b.apply ⟨⟨_, Extent.index_lt_count hcell⟩, r⟩) b') :
    Layer ((p, c) :: pairs) b b' := by
  have hbelow : ∀ d : Cell, (⟨p.x.toNat, p.y.toNat, 0⟩ : Cell) = d ↔ d.z = 0 ∧ d.point = p := by
    intro d
    obtain ⟨x, y, z⟩ := d
    obtain ⟨px, py⟩ := p
    obtain ⟨⟨hx, -⟩, ⟨hy, -⟩⟩ : (0 ≤ px ∧ _) ∧ (0 ≤ py ∧ _) := hp
    simp only [Cell.point, Cell.mk.injEq, Point.mk.injEq]
    omega
  refine ⟨h.extent, ?_, ?_⟩
  · intro d hd hmem
    by_cases hlater : d.z = 0 ∧ d.point ∈ pairs.map Prod.fst
    · obtain ⟨c', hc', hrecord⟩ := h.painted d hd hlater
      exact ⟨c', List.mem_cons_of_mem _ hc', hrecord⟩
    · have hpoint : d.point = p := by
        rw [List.map_cons, List.mem_cons] at hmem
        tauto
      refine ⟨c, hpoint ▸ List.mem_cons_self, ?_⟩
      rw [h.kept d hd hlater, Canvas.ink_apply hcell hd, if_pos ((hbelow d).mpr ⟨hmem.1, hpoint⟩)]
      exact hr
  · intro d hd hmem
    rw [List.map_cons, List.mem_cons] at hmem
    rw [h.kept d hd (by tauto), Canvas.ink_apply hcell hd, if_neg (by rw [hbelow]; tauto)]

end Layer

/-- Painting gets as far as the first pair that cannot be painted; what it ends with there does not
depend on what the canvas shows by then. -/
theorem paintPoints_layer (pairs : List (Point × Color)) (b : Canvas) :
    ∃ n b', Layer (pairs.take n) b b' ∧ (∀ pair ∈ pairs.take n, Takes b.extent pair) ∧
      (n = pairs.length ∧ paintPoints pairs b = (none, b') ∨
        ∃ pair fault, pairs[n]? = some pair ∧ ¬Takes b.extent pair ∧
          pointEdit b pair.1 pair.2 = .error fault ∧ paintPoints pairs b = (some fault, b')) := by
  induction pairs generalizing b with
  | nil => exact ⟨0, b, .nil b, List.forall_mem_nil _, .inl ⟨rfl, rfl⟩⟩
  | cons pair rest ih =>
    obtain ⟨p, c⟩ := pair
    have hstop : ∀ fault, pointEdit b p c = .error fault →
        paintPoints ((p, c) :: rest) b = (some fault, b) := by
      intro fault hedit
      rw [paintPoints, hedit]
    cases hr : c.record with
    | error fault =>
      have hedit := pointEdit_of_error hr b p
      have hnot : ¬Takes b.extent (p, c) := by
        intro htakes
        obtain ⟨r, hok⟩ := Color.exists_record_iff.mpr htakes.2
        cases hr.symm.trans hok
      exact ⟨0, b, .nil b, List.forall_mem_nil _, .inr ⟨_, _, rfl, hnot, hedit, hstop _ hedit⟩⟩
    | ok r =>
      by_cases hp : b.extent.Holds p ∧ 0 < b.extent.height
      · obtain ⟨hcell, hedit⟩ := pointEdit_of_holds hr hp
        -- the rest is painted on a canvas of the same sides, and nothing else of it is asked for
        obtain ⟨n, b', hlayer, htakes, hend⟩ := ih (b.apply ⟨⟨_, Extent.index_lt_count hcell⟩, r⟩)
        have hgoes : paintPoints ((p, c) :: rest) b =
            paintPoints rest (b.apply ⟨⟨_, Extent.index_lt_count hcell⟩, r⟩) := by
          rw [paintPoints, hedit]
          rfl
        refine ⟨n + 1, b', hlayer.cons hr hp.1 hcell, ?_, ?_⟩
        · exact List.forall_mem_cons.mpr ⟨⟨hp, Color.exists_record_iff.mp ⟨r, hr⟩⟩, htakes⟩
        · rw [hgoes]
          rcases hend with ⟨hn, hpaint⟩ | ⟨pair, fault, hpair, hnot, hedit', hpaint⟩
          · exact .inl ⟨congrArg Nat.succ hn, hpaint⟩
          · exact .inr ⟨pair, fault, hpair, hnot, hedit', hpaint⟩
      · have hedit := pointEdit_of_not_holds hr hp
        exact ⟨0, b, .nil b, List.forall_mem_nil _,
          .inr ⟨_, _, rfl, fun htakes => hp htakes.1, hedit, hstop _ hedit⟩⟩

/-! ## One color for all points -/

theorem map_fst_zip_replicate (points : List Point) (c : Color) :
    (points.zip (List.replicate points.length c)).map Prod.fst = points :=
  List.map_fst_zip (by rw [List.length_replicate])

theorem of_mem_zip_replicate {points : List Point} {n : Nat} {c : Color} {pair : Point × Color}
    (h : pair ∈ points.zip (List.replicate n c)) : pair.1 ∈ points ∧ pair.2 = c :=
  ⟨(List.of_mem_zip h).1, List.eq_of_mem_replicate (List.of_mem_zip h).2⟩

section Points

variable {c : Color} {r : Rgba} (hr : c.record = .ok r) {points : List Point} {b : Canvas}

include hr

/-- Points that are all on the canvas take the color, and nothing else changes. -/
theorem paintPoints_of_holds (hheight : 0 < b.extent.height)
    (hpoints : ∀ p ∈ points, b.extent.Holds p) :
    ∃ b', paintPoints (points.zip (List.replicate points.length c)) b = (none, b') ∧
      b'.extent = b.extent ∧ ∀ d, b.extent.Contains d →
        b'.ink d = if d.z = 0 ∧ d.point ∈ points then r else b.ink d := by
  obtain ⟨n, b', hlayer, -, ⟨rfl, hpaint⟩ | ⟨pair, -, hpair, hnot, -⟩⟩ :=
    paintPoints_layer (points.zip (List.replicate points.length c)) b
  · rw [List.take_length] at hlayer
    refine ⟨b', hpaint, hlayer.extent, ?_⟩
    intro d hd
    split
    · next hmem =>
      rw [← map_fst_zip_replicate points c] at hmem
      obtain ⟨c', hc', hrecord⟩ := hlayer.painted d hd hmem
      obtain rfl : c' = c := (of_mem_zip_replicate hc').2
      exact Except.ok.inj (hrecord.symm.trans hr)
    · next hmem =>
      rw [← map_fst_zip_replicate points c] at hmem
      exact hlayer.kept d hd hmem
  · obtain ⟨hp, hc⟩ := of_mem_zip_replicate (List.mem_of_getElem? hpair)
    exact absurd ⟨⟨hpoints _ hp, hheight⟩, Color.exists_record_iff.mp ⟨r, hc ▸ hr⟩⟩ hnot

/-- Painting ends with the first point that is not on the canvas. -/
theorem paintPoints_of_not_holds (hpoints : ¬∀ p ∈ points, b.extent.Holds p) :
    ∃ x y, (paintPoints (points.zip (List.replicate points.length c)) b).1 =
      some (.address (.noCell x y 0 b.extent)) := by
  obtain ⟨n, b', -, htakes, ⟨rfl, -⟩ | ⟨⟨p, c'⟩, fault, hpair, hnot, hedit, hpaint⟩⟩ :=
    paintPoints_layer (points.zip (List.replicate points.length c)) b
  · rw [List.take_length] at htakes
    refine absurd ?_ hpoints
    intro p hp
    rw [← map_fst_zip_replicate points c] at hp
    obtain ⟨pair, hpair, rfl⟩ := List.mem_map.mp hp
    exact (htakes pair hpair).1.1
  · obtain rfl : c' = c := (of_mem_zip_replicate (List.mem_of_getElem? hpair)).2
    rw [pointEdit_of_not_holds hr fun hp => hnot ⟨hp, Color.exists_record_iff.mp ⟨r, hr⟩⟩] at hedit
    cases hedit
    exact ⟨p.x, p.y, by rw [hpaint]⟩

end Points

/-! ## A whole draw -/

theorem drawWith_of_error {t : Turtle} {distance : Value} {fault : TurtleFault}
    (h : t.destination distance = .error fault) (paint : Paint) :
    t.drawWith distance paint = ⟨some fault, t⟩ := by
  rw [drawWith, trace, h]
  rfl

section Draw

variable {t : Turtle} {distance : Value} {stop : Point} {paint : Paint} {c : Color} {r : Rgba}

theorem trace_of_destination (hstop : t.destination distance = .ok stop) :
    t.trace distance = .ok (Line.points t.position stop) := by
  rw [trace, hstop]
  rfl

/-- Painting a line leads to its end, however far the painting gets. -/
theorem paint_points (t : Turtle) (stop : Point) (colors : List Color) :
    t.paint (Line.points t.position stop) colors =
      let painted := paintPoints ((Line.points t.position stop).zip colors) t.canvas
      ⟨painted.1.map .canvas, (t.moveTo stop).onto painted.2⟩ := by
  have hlast : (Line.points t.position stop).getLast?.getD ⟨t.x, t.y⟩ = stop := by
    rw [Line.getLast?_points, Option.getD_some]
  simp only [paint, hlast]
  rfl

theorem drawWith_eq (hstop : t.destination distance = .ok stop)
    (hpaint : paint.toColor = .ok c) :
    t.drawWith distance paint =
      let points := Line.points t.position stop
      let painted := paintPoints (points.zip (List.replicate points.length c)) t.canvas
      ⟨painted.1.map .canvas, (t.moveTo stop).onto painted.2⟩ := by
  rw [drawWith, trace_of_destination hstop, hpaint]
  exact t.paint_points stop _

variable (hstop : t.destination distance = .ok stop) (hpaint : paint.toColor = .ok c)
  (hr : c.record = .ok r)

include hstop hpaint hr

theorem drawWith_of_holds (hheight : 0 < t.canvas.extent.height)
    (hends : t.canvas.extent.Holds t.position ∧ t.canvas.extent.Holds stop) :
    ∃ b, t.drawWith distance paint = ⟨none, (t.moveTo stop).onto b⟩ ∧
      b.extent = t.canvas.extent ∧ ∀ d, t.canvas.extent.Contains d →
        b.ink d =
          if d.z = 0 ∧ d.point ∈ Line.points t.position stop then r else t.canvas.ink d := by
  obtain ⟨b, hpaints, hextent, hrecord⟩ :=
    paintPoints_of_holds hr hheight (Extent.holds_points_iff.mpr hends)
  refine ⟨b, ?_, hextent, hrecord⟩
  rw [drawWith_eq hstop hpaint]
  simp only [hpaints]
  rfl

theorem drawWith_of_not_holds
    (hends : ¬(t.canvas.extent.Holds t.position ∧ t.canvas.extent.Holds stop)) :
    ∃ x y, (t.drawWith distance paint).fault? =
      some (.canvas (.address (.noCell x y 0 t.canvas.extent))) := by
  obtain ⟨x, y, hpaints⟩ :=
    paintPoints_of_not_holds hr (mt Extent.holds_points_iff.mp hends)
  refine ⟨x, y, ?_⟩
  rw [drawWith_eq hstop hpaint]
  simp only [hpaints]
  rfl

end Draw
end Turtle
end VoxelCurve
