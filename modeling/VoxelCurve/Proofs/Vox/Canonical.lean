import VoxelCurve.Proofs.Vox.FirstSeen

/-!
The file of a canvas as its canonical form.

A scan looks at the sides of a canvas and at its opaque cells, and at nothing else.  So the
channels that a transparent cell hides leave no trace in a file.  All the rest can be read back,
and therefore two canvases are written alike exactly when they look alike (`encode_eq_iff`).
What is read back of a file looks like what was written, and is written as the same file again.
-/

namespace VoxelCurve

namespace Rgba

theorem kept_of_alpha_eq {r : Rgba} (h : alpha r = 0) : kept r = Record.blank 4 :=
  if_pos h

theorem kept_of_alpha_ne {r : Rgba} (h : alpha r ≠ 0) : kept r = r :=
  if_neg h

theorem kept_kept (r : Rgba) : kept (kept r) = kept r := by
  by_cases h : alpha r = 0
  · rw [kept_of_alpha_eq h]
    rfl
  · rw [kept_of_alpha_ne h, kept_of_alpha_ne h]

theorem kept_eq_kept_iff {r r' : Rgba} :
    kept r = kept r' ↔ alpha r = 0 ∧ alpha r' = 0 ∨ r = r' := by
  constructor
  · intro h
    by_cases hr : alpha r = 0
    · refine Or.inl ⟨hr, ?_⟩
      by_cases hr' : alpha r' = 0
      · exact hr'
      · rw [kept_of_alpha_eq hr, kept_of_alpha_ne hr'] at h
        exact h ▸ rfl
    · rw [kept_of_alpha_ne hr] at h
      by_cases hr' : alpha r' = 0
      · rw [kept_of_alpha_eq hr'] at h
        exact absurd (h ▸ rfl) hr
      · exact Or.inr (h.trans (kept_of_alpha_ne hr'))
  · rintro (⟨hr, hr'⟩ | rfl)
    · rw [kept_of_alpha_eq hr, kept_of_alpha_eq hr']
    · rfl

end Rgba

namespace Buffer

/-- Whether two canvases have the same sides and show the same at every cell: one color, or none
in both. -/
structure LooksLike (b b' : Canvas) : Prop where
  extent_eq : b.extent = b'.extent
  shows : ∀ (x y z : Int) (r r' : Rgba), b.get x y z = .ok r → b'.get x y z = .ok r' →
    Rgba.alpha r = 0 ∧ Rgba.alpha r' = 0 ∨ r = r'

variable {b b' : Canvas}

theorem looksLike_iff_kept :
    b.LooksLike b' ↔ b.extent = b'.extent ∧
      ∀ c, b.extent.Contains c → Rgba.kept (b.recordAt c) = Rgba.kept (b'.recordAt c) := by
  constructor
  · intro h
    refine ⟨h.extent_eq, fun c hc => ?_⟩
    have hc' : b'.extent.Contains c := h.extent_eq ▸ hc
    exact Rgba.kept_eq_kept_iff.mpr
      (h.shows c.x c.y c.z _ _ (get_of_contains hc) (get_of_contains hc'))
  · rintro ⟨hextent, hkept⟩
    refine ⟨hextent, fun x y z r r' hr hr' => ?_⟩
    rw [get_eq] at hr hr'
    split at hr
    · next hin =>
      rw [if_pos (hextent ▸ hin)] at hr'
      cases hr
      cases hr'
      exact Rgba.kept_eq_kept_iff.mp (hkept _ hin.2)
    · cases hr

/-- Two canvases that look alike have their opaque cells in common. -/
theorem LooksLike.opaqueCells_eq (h : b.LooksLike b') : b.opaqueCells = b'.opaqueCells := by
  obtain ⟨e, w⟩ := b
  obtain ⟨e', w'⟩ := b'
  obtain ⟨hextent, hkept⟩ := looksLike_iff_kept.mp h
  obtain rfl : e = e' := hextent
  have hcell : ∀ i, i < e.count → e.Contains (e.cell i) := fun i hi => Extent.contains_cell hi
  have hnumbers : (⟨e, w⟩ : Canvas).opaqueNumbers = (⟨e, w'⟩ : Canvas).opaqueNumbers := by
    refine List.filter_congr fun i hi => ?_
    have hcase := Rgba.kept_eq_kept_iff.mp (hkept _ (hcell i (List.mem_range.mp hi)))
    rcases hcase with ⟨h0, h0'⟩ | hsame
    · simp only [colorAt, h0, h0']
    · simp only [colorAt, hsame]
      rfl
  rw [Buffer.opaqueCells_eq, Buffer.opaqueCells_eq, ← hnumbers]
  refine List.map_congr_left fun i hi => ?_
  obtain ⟨hi, halpha⟩ := List.mem_filter.mp hi
  have hcase := Rgba.kept_eq_kept_iff.mp (hkept _ (hcell i (List.mem_range.mp hi)))
  rcases hcase with ⟨h0, -⟩ | hsame
  · exact absurd h0 (of_decide_eq_true halpha)
  · exact congrArg (Prod.mk (e.cell i)) hsame

theorem LooksLike.model_eq (h : b.LooksLike b') : b.model = b'.model := by
  simp only [model, colors, h.opaqueCells_eq, h.extent_eq]

theorem LooksLike.scannable (h : b.LooksLike b') (hb : b.Scannable) : b'.Scannable := by
  have hcolors : b'.colors = b.colors := by rw [colors, colors, h.opaqueCells_eq]
  have hcells := h.opaqueCells_eq
  have hextent := h.extent_eq
  refine ⟨?_, ?_, ?_, ?_, ?_, ?_⟩
  · exact hextent ▸ hb.width_le
  · exact hextent ▸ hb.depth_le
  · exact hextent ▸ hb.height_le
  · exact hextent ▸ hb.shapeable
  · exact hcolors ▸ hb.colors_le
  · exact hcells ▸ hb.fits

/-- The canvas that a model is made from looks like the one that is made of it. -/
theorem Scannable.exists_looksLike (h : b.Scannable) :
    ∃ b₁ : Canvas, b.model.toBuffer = .ok b₁ ∧ b.LooksLike b₁ := by
  obtain ⟨b₁, hbuffer, hextent, hrecord⟩ := h.toBuffer_model
  refine ⟨b₁, hbuffer, looksLike_iff_kept.mpr ⟨hextent.symm, fun c hc => ?_⟩⟩
  have hkept : Rgba.kept (b₁.recordAt c) = Rgba.kept (Rgba.kept (b.recordAt c)) :=
    congrArg Rgba.kept (hrecord c hc)
  exact (hkept.trans (Rgba.kept_kept _)).symm

end Buffer

namespace Vox

theorem encode_eq_ok_iff {b : Canvas} {bytes : List UInt8} :
    encode .rgba b = .ok bytes ↔ b.Scannable ∧ b.model.encode = .ok bytes := by
  have hbind : encode .rgba b = scanCanvas b >>= Model.encode := rfl
  rw [hbind, bind_eq_ok_iff]
  constructor
  · rintro ⟨m, hscan, hencode⟩
    obtain ⟨hs, rfl⟩ := scanCanvas_eq_ok_iff.mp hscan
    exact ⟨hs, hencode⟩
  · rintro ⟨hs, hencode⟩
    exact ⟨b.model, scanCanvas_eq_ok_iff.mpr ⟨hs, rfl⟩, hencode⟩

/-- What looks alike is written alike. -/
theorem encode_of_looksLike {b b' : Canvas} {bytes : List UInt8} (h : b.LooksLike b')
    (hb : encode .rgba b = .ok bytes) : encode .rgba b' = .ok bytes := by
  rw [encode_eq_ok_iff] at hb ⊢
  exact ⟨h.scannable hb.1, h.model_eq ▸ hb.2⟩

/-- Two canvases that can be written are written as the same bytes exactly when they look alike,
and what is read back of the bytes is written as them again. -/
theorem encode_eq_iff {b b' : Canvas} {bytes bytes' : List UInt8}
    (h : encode .rgba b = .ok bytes) (h' : encode .rgba b' = .ok bytes') :
    (bytes = bytes' ↔ b.LooksLike b') ∧
      ∃ m b₁, decode bytes = .ok m ∧ m.toBuffer = .ok b₁ ∧ encode .rgba b₁ = .ok bytes := by
  obtain ⟨hs, hencode⟩ := encode_eq_ok_iff.mp h
  obtain ⟨hs', hencode'⟩ := encode_eq_ok_iff.mp h'
  obtain ⟨b₁, hbuffer, hlike⟩ := hs.exists_looksLike
  obtain ⟨b₁', hbuffer', hlike'⟩ := hs'.exists_looksLike
  have hdecode := Model.decode_of_encode hencode
  refine ⟨⟨?_, ?_⟩, b.model, b₁, hdecode, hbuffer, encode_of_looksLike hlike h⟩
  · rintro rfl
    have hmodel : b.model = b'.model :=
      Except.ok.inj (hdecode.symm.trans (Model.decode_of_encode hencode'))
    rw [hmodel, hbuffer'] at hbuffer
    obtain rfl := Except.ok.inj hbuffer
    rw [Buffer.looksLike_iff_kept] at hlike hlike' ⊢
    refine ⟨hlike.1.trans hlike'.1.symm, fun c hc => (hlike.2 c hc).trans (hlike'.2 c ?_).symm⟩
    rw [hlike'.1, ← hlike.1]
    exact hc
  · intro hlook
    exact Except.ok.inj ((encode_of_looksLike hlook h).symm.trans h')

/-- A color in one cell, and another one that is hidden in the cell beside it. -/
def veiled (r : Rgba) : Canvas :=
  let b : Canvas := ⟨⟨2, 1, 1⟩, ∅⟩
  let b := b.apply ⟨⟨0, by decide⟩, #v[1, 2, 3, 255]⟩
  b.apply ⟨⟨1, by decide⟩, r⟩

theorem encode_eq_iff_veiled :
    ∃ bytes bytes', encode .rgba (veiled #v[9, 8, 7, 0]) = .ok bytes ∧
      encode .rgba (veiled #v[0, 0, 0, 0]) = .ok bytes' ∧
      (bytes = bytes' ↔ (veiled #v[9, 8, 7, 0]).LooksLike (veiled #v[0, 0, 0, 0])) ∧
        ∃ m b₁, decode bytes = .ok m ∧ m.toBuffer = .ok b₁ ∧ encode .rgba b₁ = .ok bytes := by
  have hs : (veiled #v[9, 8, 7, 0]).Scannable :=
    ⟨by decide, by decide, by decide, by decide, by decide +kernel, by decide +kernel⟩
  have hs' : (veiled #v[0, 0, 0, 0]).Scannable :=
    ⟨by decide, by decide, by decide, by decide, by decide +kernel, by decide +kernel⟩
  have hf : (veiled #v[9, 8, 7, 0]).model.Fits := by decide +kernel
  have hf' : (veiled #v[0, 0, 0, 0]).model.Fits := by decide +kernel
  have h := encode_eq_ok_iff.mpr ⟨hs, Model.encode_eq_fileBytes _ hf⟩
  have h' := encode_eq_ok_iff.mpr ⟨hs', Model.encode_eq_fileBytes _ hf'⟩
  exact ⟨_, _, h, h', encode_eq_iff h h'⟩

end Vox
end VoxelCurve
