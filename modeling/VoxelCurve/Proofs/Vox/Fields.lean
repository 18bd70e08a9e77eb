import VoxelCurve.Proofs.Vox.Layout

/-!
The fields of a model among the children of its main chunk.

A child is looked at for what its identifier says, and then a number of bytes is read from
the start of its content: its `demand`.  Reading goes by the bytes that are there up to the
end of the file, so a child can be read exactly when these meet its demand.  Of several
children with one identifier the last one stays, except that a second one with the sides
is refused.  `decode_eq_ok_iff_selected` puts this together.
-/

namespace VoxelCurve
namespace Vox

/-- How many bytes the number of voxels and the voxels take. -/
def voxelDemand (bytes : List UInt8) : Nat :=
  match readWord? bytes with
  | some (count, _) => 4 + 4 * count.toNat
  | none => 4

theorem exists_readVoxels_iff {total : Nat} {w : Window} :
    (∃ voxels, readVoxels total w = .ok voxels) ↔ voxelDemand w.bytes ≤ w.bytes.length := by
  unfold readVoxels voxelDemand
  cases hw : readWord? w.bytes with
  | none =>
    have hlt := lt_of_eq_none hw exists_readWord?_iff
    simp only [reduceCtorEq, exists_false, false_iff]
    omega
  | some r =>
    obtain ⟨count, s⟩ := r
    have hlen := length_of_readWord? hw
    have hq : (∃ xs, readQuads? Entry.mk count.toNat s [] = some xs) ↔
        4 * count.toNat ≤ s.length := exists_readQuads?_iff
    have hle : 4 + 4 * count.toNat ≤ w.bytes.length ↔ 4 * count.toNat ≤ s.length := by omega
    rw [hle, ← hq]
    cases h : readQuads? Entry.mk count.toNat s [] with
    | none => simp only [h, reduceCtorEq, exists_false]
    | some voxels => simp only [h, Except.ok.injEq, Option.some.injEq]

theorem voxelDemand_of_readVoxels {total : Nat} {w : Window} {voxels : List Entry}
    (h : readVoxels total w = .ok voxels) : voxelDemand w.bytes = 4 + 4 * voxels.length := by
  obtain ⟨hle, rest, hw⟩ := readVoxels_eq_ok_iff.mp h
  rw [List.append_assoc] at hw
  simp only [voxelDemand, hw, readWord?_wordBytes, toNat_ofNat_of_le_maxWord hle]

namespace Window

theorem ne_size_of_voxels {w : Window} (h : w.id = Id.voxels) : w.id ≠ Id.size := by
  rw [h]
  decide

theorem ne_size_of_palette {w : Window} (h : w.id = Id.palette) : w.id ≠ Id.size := by
  rw [h]
  decide

theorem ne_voxels_of_palette {w : Window} (h : w.id = Id.palette) : w.id ≠ Id.voxels := by
  rw [h]
  decide

/-- How many bytes are read from the start of a child's content. -/
def demand (w : Window) : Nat :=
  if w.id = Id.size then 12
  else if w.id = Id.voxels then voxelDemand w.bytes
  else if w.id = Id.palette then 1024
  else 0

theorem demand_size {w : Window} (h : w.id = Id.size) : w.demand = 12 :=
  if_pos h

theorem demand_voxels {w : Window} (h : w.id = Id.voxels) : w.demand = voxelDemand w.bytes := by
  rw [demand, if_neg (ne_size_of_voxels h), if_pos h]

theorem demand_palette {w : Window} (h : w.id = Id.palette) : w.demand = 1024 := by
  rw [demand, if_neg (ne_size_of_palette h), if_neg (ne_voxels_of_palette h), if_pos h]

end Window

namespace Parts

/-- What a child that can be read adds. -/
def put (total : Nat) (p : Parts) (w : Window) : Parts :=
  if w.id = Id.size then { p with sides? := readSides? w.bytes }
  else if w.id = Id.voxels then { p with voxels? := (readVoxels total w).toOption }
  else if w.id = Id.palette then { p with palette? := readPalette? w.bytes }
  else p

theorem add_size_eq_ok_iff {total : Nat} {p q : Parts} {w : Window} (h : w.id = Id.size) :
    p.add total w = .ok q ↔
      12 ≤ w.bytes.length ∧ p.sides? = none ∧ q = { p with sides? := readSides? w.bytes } := by
  have hd := exists_readSides?_iff (s := w.bytes)
  rw [add, if_pos h, ← hd]
  cases hp : p.sides? with
  | some sides => simp only [Option.isSome_some, if_true, reduceCtorEq, false_and, and_false]
  | none =>
    cases hr : readSides? w.bytes with
    | none => simp only [Option.isSome_none, Bool.false_eq_true, if_false, reduceCtorEq,
        exists_false, false_and]
    | some sides =>
      simp only [Option.isSome_none, Bool.false_eq_true, if_false, Except.ok.injEq,
        Option.some.injEq, exists_eq', true_and]
      exact eq_comm

theorem add_voxels_eq_ok_iff {total : Nat} {p q : Parts} {w : Window} (h : w.id = Id.voxels) :
    p.add total w = .ok q ↔
      voxelDemand w.bytes ≤ w.bytes.length ∧
        q = { p with voxels? := (readVoxels total w).toOption } := by
  rw [add, if_neg (Window.ne_size_of_voxels h), if_pos h, bind_eq_ok_iff,
    ← exists_readVoxels_iff]
  cases hr : readVoxels total w with
  | error fault => simp only [reduceCtorEq, false_and, exists_false]
  | ok voxels =>
    simp only [Except.ok.injEq, exists_eq_left', exists_eq', true_and, Except.toOption]
    exact eq_comm

theorem add_palette_eq_ok_iff {total : Nat} {p q : Parts} {w : Window}
    (h : w.id = Id.palette) :
    p.add total w = .ok q ↔
      1024 ≤ w.bytes.length ∧ q = { p with palette? := readPalette? w.bytes } := by
  rw [add, if_neg (Window.ne_size_of_palette h), if_neg (Window.ne_voxels_of_palette h), if_pos h,
    ← exists_readPalette?_iff]
  cases hr : readPalette? w.bytes with
  | none => simp only [reduceCtorEq, exists_false, false_and]
  | some palette =>
    simp only [Except.ok.injEq, Option.some.injEq, exists_eq', true_and]
    exact eq_comm

/-- A child is read exactly when the file goes on for as long as it demands, and it is no
second one with the sides. -/
theorem add_eq_ok_iff {total : Nat} {p q : Parts} {w : Window} :
    p.add total w = .ok q ↔
      w.demand ≤ w.bytes.length ∧ (w.id = Id.size → p.sides? = none) ∧ q = p.put total w := by
  by_cases hs : w.id = Id.size
  · rw [add_size_eq_ok_iff hs, Window.demand_size hs, put, if_pos hs]
    simp only [hs, true_implies]
  by_cases hv : w.id = Id.voxels
  · rw [add_voxels_eq_ok_iff hv, Window.demand_voxels hv, put, if_neg hs, if_pos hv]
    simp only [hs, false_implies, true_and]
  by_cases hp : w.id = Id.palette
  · rw [add_palette_eq_ok_iff hp, Window.demand_palette hp, put, if_neg hs, if_neg hv, if_pos hp]
    simp only [hs, false_implies, true_and]
  · rw [add, put, Window.demand, if_neg hs, if_neg hv, if_neg hp, if_neg hs, if_neg hv,
      if_neg hp, if_neg hs, if_neg hv, if_neg hp]
    simp only [hs, false_implies, true_and, Nat.zero_le, Except.ok.injEq]
    exact eq_comm

/-- How many children with the sides there are, with one that was read before. -/
def sizeCount (p : Parts) (windows : List Window) : Nat :=
  p.sides?.toList.length + windows.countP fun w => w.id = Id.size

theorem sizeCount_put {total : Nat} {p : Parts} {w : Window} (windows : List Window)
    (h : w.demand ≤ w.bytes.length) (hw : w.id = Id.size → p.sides? = none) :
    (p.put total w).sizeCount windows = p.sizeCount (w :: windows) := by
  by_cases hs : w.id = Id.size
  · rw [Window.demand_size hs] at h
    obtain ⟨sides, hr⟩ := exists_readSides?_iff.mpr h
    simp only [sizeCount, put, hr, hw hs, List.countP_cons, hs, decide_true, if_true,
      Option.toList_some, Option.toList_none, List.length_cons, List.length_nil]
    omega
  · have hsides : (p.put total w).sides? = p.sides? := by
      rw [put, if_neg hs]
      split
      · rfl
      · split <;> rfl
    simp only [sizeCount, hsides, List.countP_cons, hs, decide_false, Bool.false_eq_true,
      if_false, Nat.add_zero]

theorem sides?_eq_none_of_sizeCount_le {p : Parts} {w : Window} {windows : List Window}
    (h : p.sizeCount (w :: windows) ≤ 1) (hw : w.id = Id.size) : p.sides? = none := by
  rw [sizeCount, List.countP_cons_of_pos (by simpa using hw)] at h
  cases hp : p.sides? with
  | none => rfl
  | some sides =>
    rw [hp, Option.toList_some, List.length_singleton] at h
    omega

/-- Children are read exactly when each of them can be, and at most one has the sides. -/
theorem foldlM_add_eq_ok_iff {total : Nat} {p q : Parts} {windows : List Window} :
    windows.foldlM (add total) p = .ok q ↔
      (∀ w ∈ windows, w.demand ≤ w.bytes.length) ∧ p.sizeCount windows ≤ 1 ∧
        q = windows.foldl (put total) p := by
  induction windows generalizing p with
  | nil =>
    have hcount : p.sizeCount [] ≤ 1 := by
      rw [sizeCount, List.countP_nil]
      cases p.sides? <;> simp
    constructor
    · intro h
      cases h
      exact ⟨fun _ h => absurd h List.not_mem_nil, hcount, rfl⟩
    · intro h
      rw [h.2.2]
      rfl
  | cons w windows ih =>
    rw [List.foldlM_cons, bind_eq_ok_iff, List.forall_mem_cons]
    constructor
    · intro h
      obtain ⟨r, hadd, hfold⟩ := h
      obtain ⟨hd, hn, rfl⟩ := add_eq_ok_iff.mp hadd
      obtain ⟨hall, hcount, hq⟩ := ih.mp hfold
      rw [sizeCount_put windows hd hn] at hcount
      exact ⟨⟨hd, hall⟩, hcount, hq⟩
    · intro h
      obtain ⟨⟨hd, hall⟩, hcount, hq⟩ := h
      have hn := sides?_eq_none_of_sizeCount_le hcount
      refine ⟨p.put total w, add_eq_ok_iff.mpr ⟨hd, hn, rfl⟩, ih.mpr ⟨hall, ?_, hq⟩⟩
      rw [sizeCount_put windows hd hn]
      exact hcount

end Parts

/-! ## The last child with an identifier -/

/-- A field that is read from the children with one identifier is that of the last one. -/
theorem field_foldl_put {β : Type} {total : Nat} (id : List UInt8) (field : Parts → Option β)
    (read : Window → Option β)
    (h : ∀ p w, field (Parts.put total p w) = if w.id = id then read w else field p)
    (p : Parts) (windows : List Window) :
    field (windows.foldl (Parts.put total) p) =
      match windows.findRev? fun w => w.id = id with
      | some w => read w
      | none => field p := by
  induction windows generalizing p with
  | nil => rfl
  | cons w windows ih =>
    rw [List.foldl_cons, ih, List.findRev?, h]
    cases windows.findRev? fun w => w.id = id with
    | some v => rfl
    | none =>
      by_cases hw : w.id = id
      · rw [if_pos hw, if_pos (decide_eq_true hw)]
      · rw [if_neg hw, if_neg (by simpa using hw)]

namespace Parts

theorem sides?_foldl_put (total : Nat) (windows : List Window) :
    (windows.foldl (put total) {}).sides? =
      (windows.findRev? fun w => w.id = Id.size).bind fun w => readSides? w.bytes := by
  rw [field_foldl_put Id.size Parts.sides? fun w => readSides? w.bytes]
  · cases windows.findRev? fun w => w.id = Id.size <;> rfl
  · intro p w
    by_cases hs : w.id = Id.size
    · rw [put, if_pos hs, if_pos hs]
    · rw [put, if_neg hs, if_neg hs]
      split
      · rfl
      · split <;> rfl

theorem voxels?_foldl_put (total : Nat) (windows : List Window) :
    (windows.foldl (put total) {}).voxels? =
      (windows.findRev? fun w => w.id = Id.voxels).bind fun w =>
        (readVoxels total w).toOption := by
  rw [field_foldl_put Id.voxels Parts.voxels? fun w => (readVoxels total w).toOption]
  · cases windows.findRev? fun w => w.id = Id.voxels <;> rfl
  · intro p w
    by_cases hv : w.id = Id.voxels
    · rw [put, if_neg (Window.ne_size_of_voxels hv), if_pos hv, if_pos hv]
    · rw [put, if_neg hv, if_neg hv]
      split
      · rfl
      · split <;> rfl

theorem palette?_foldl_put (total : Nat) (windows : List Window) :
    (windows.foldl (put total) {}).palette? =
      (windows.findRev? fun w => w.id = Id.palette).bind fun w => readPalette? w.bytes := by
  rw [field_foldl_put Id.palette Parts.palette? fun w => readPalette? w.bytes]
  · cases windows.findRev? fun w => w.id = Id.palette <;> rfl
  · intro p w
    by_cases hp : w.id = Id.palette
    · rw [put, if_neg (Window.ne_size_of_palette hp), if_neg (Window.ne_voxels_of_palette hp),
        if_pos hp, if_pos hp]
    · rw [put, if_neg hp, if_neg hp]
      split
      · rfl
      · split <;> rfl

end Parts

/-! ## What a file says -/

/-- The children of the main chunk, and the three of them that fields are read from. -/
structure Selected (bytes : List UInt8) (version : UInt32) (children : List Window)
    (size voxels palette : Window) : Prop where
  children_eq : mainChildren? bytes = some (version, children)
  size_eq : (children.filter fun w => w.id = Id.size) = [size]
  voxels_eq : (children.findRev? fun w => w.id = Id.voxels) = some voxels
  palette_eq : (children.findRev? fun w => w.id = Id.palette) = some palette

/-- A single one is the last one, and there is no other. -/
theorem filter_size_eq_singleton_iff {children : List Window} {size : Window} :
    (children.filter fun w => w.id = Id.size) = [size] ↔
      (children.findRev? fun w => w.id = Id.size) = some size ∧
        ({} : Parts).sizeCount children ≤ 1 := by
  have hcount : ({} : Parts).sizeCount children =
      (children.filter fun w => w.id = Id.size).length := by
    rw [Parts.sizeCount, List.countP_eq_length_filter, Option.toList_none, List.length_nil,
      Nat.zero_add]
  rw [hcount, List.findRev?_eq_find?_reverse, ← List.getLast?_filter]
  constructor
  · intro h
    rw [h]
    exact ⟨rfl, Nat.le_refl 1⟩
  · intro h
    obtain ⟨hlast, hle⟩ := h
    match hf : children.filter fun w => w.id = Id.size with
    | [] => rw [hf] at hlast; cases hlast
    | [w] => rw [hf] at hlast; cases hlast; exact hf
    | _ :: _ :: rest => rw [hf] at hle; simp at hle

theorem Parts.model_eq_ok_iff {p : Parts} {version : UInt32} {m : Model} :
    p.model version = .ok m ↔
      p.sides? = some (m.width, m.depth, m.height) ∧ p.voxels? = some m.voxels ∧
        p.palette? = some m.palette ∧ version = m.version := by
  obtain ⟨sides?, voxels?, palette?⟩ := p
  obtain ⟨width, depth, height, voxels, palette, version'⟩ := m
  rcases sides? with _ | ⟨width', depth', height'⟩ <;> cases voxels? <;> cases palette? <;>
    simp [Parts.model, and_assoc]

/-- A file has a model exactly when its chunks fit, the children hold one with the sides,
some voxels and some palette, and each of them can be read. -/
theorem decode_eq_ok_iff_selected {bytes : List UInt8} {m : Model} :
    decode bytes = .ok m ↔
      ∃ children size voxels palette,
        Selected bytes m.version children size voxels palette ∧
        (∀ w ∈ children, w.demand ≤ w.bytes.length) ∧
        readSides? size.bytes = some (m.width, m.depth, m.height) ∧
        readVoxels bytes.length voxels = .ok m.voxels ∧
        readPalette? palette.bytes = some m.palette := by
  rw [decode_eq_ok_iff]
  constructor
  · intro h
    obtain ⟨version, children, p, hc, hp, hm⟩ := h
    obtain ⟨hall, hcount, rfl⟩ := Parts.foldlM_add_eq_ok_iff.mp hp
    obtain ⟨hs, hv, hp, rfl⟩ := Parts.model_eq_ok_iff.mp hm
    rw [Parts.sides?_foldl_put, Option.bind_eq_some_iff] at hs
    rw [Parts.voxels?_foldl_put, Option.bind_eq_some_iff] at hv
    rw [Parts.palette?_foldl_put, Option.bind_eq_some_iff] at hp
    obtain ⟨size, hsize, hs⟩ := hs
    obtain ⟨voxels, hvoxels, hv⟩ := hv
    obtain ⟨palette, hpalette, hp⟩ := hp
    have hone := filter_size_eq_singleton_iff.mpr ⟨hsize, hcount⟩
    exact ⟨children, size, voxels, palette, ⟨hc, hone, hvoxels, hpalette⟩, hall, hs,
      toOption_eq_some_iff.mp hv, hp⟩
  · intro h
    obtain ⟨children, size, voxels, palette, hsel, hall, hs, hv, hp⟩ := h
    obtain ⟨hlast, hcount⟩ := filter_size_eq_singleton_iff.mp hsel.size_eq
    refine ⟨m.version, children, _, hsel.children_eq,
      Parts.foldlM_add_eq_ok_iff.mpr ⟨hall, hcount, rfl⟩,
      Parts.model_eq_ok_iff.mpr ⟨?_, ?_, ?_, rfl⟩⟩
    · rw [Parts.sides?_foldl_put, hlast, Option.bind_some, hs]
    · rw [Parts.voxels?_foldl_put, hsel.voxels_eq, Option.bind_some, toOption_eq_some_iff, hv]
    · rw [Parts.palette?_foldl_put, hsel.palette_eq, Option.bind_some, hp]

theorem Selected.unique {bytes : List UInt8} {version version' : UInt32}
    {children children' : List Window} {size size' voxels voxels' palette palette' : Window}
    (h : Selected bytes version children size voxels palette)
    (h' : Selected bytes version' children' size' voxels' palette') :
    size = size' ∧ voxels = voxels' ∧ palette = palette' := by
  have hc := h.children_eq.symm.trans h'.children_eq
  simp only [Option.some.injEq, Prod.mk.injEq] at hc
  obtain ⟨rfl, rfl⟩ := hc
  have hs := h.size_eq.symm.trans h'.size_eq
  have hv := h.voxels_eq.symm.trans h'.voxels_eq
  have hp := h.palette_eq.symm.trans h'.palette_eq
  simp only [List.cons.injEq, and_true] at hs
  exact ⟨hs, Option.some.inj hv, Option.some.inj hp⟩

theorem Selected.mem_children {bytes : List UInt8} {version : UInt32} {children : List Window}
    {size voxels palette : Window}
    (h : Selected bytes version children size voxels palette) :
    (size ∈ children ∧ size.id = Id.size) ∧ (voxels ∈ children ∧ voxels.id = Id.voxels) ∧
      (palette ∈ children ∧ palette.id = Id.palette) := by
  have hs : size ∈ children.filter fun w => w.id = Id.size := by
    rw [h.size_eq]
    exact List.mem_singleton_self size
  obtain ⟨hs, hsid⟩ := List.mem_filter.mp hs
  obtain ⟨hv, hvid⟩ := of_findRev?_eq_some h.voxels_eq
  obtain ⟨hp, hpid⟩ := of_findRev?_eq_some h.palette_eq
  exact ⟨⟨hs, of_decide_eq_true hsid⟩, ⟨hv, of_decide_eq_true hvid⟩,
    ⟨hp, of_decide_eq_true hpid⟩⟩

/-- Where the file goes on for as long as each child demands, it has a model with what the
three children are read as. -/
theorem Selected.exists_model {bytes : List UInt8} {version : UInt32} {children : List Window}
    {size voxels palette : Window}
    (h : Selected bytes version children size voxels palette)
    (hall : ∀ w ∈ children, w.demand ≤ w.bytes.length) :
    ∃ m, decode bytes = .ok m ∧ m.version = version ∧
      readSides? size.bytes = some (m.width, m.depth, m.height) ∧
      readVoxels bytes.length voxels = .ok m.voxels ∧
      readPalette? palette.bytes = some m.palette := by
  obtain ⟨⟨hsm, hsid⟩, ⟨hvm, hvid⟩, ⟨hpm, hpid⟩⟩ := h.mem_children
  have hsl := hall size hsm
  have hvl := hall voxels hvm
  have hpl := hall palette hpm
  rw [Window.demand_size hsid, ← exists_readSides?_iff] at hsl
  rw [Window.demand_voxels hvid, ← exists_readVoxels_iff] at hvl
  rw [Window.demand_palette hpid, ← exists_readPalette?_iff] at hpl
  obtain ⟨⟨width, depth, height⟩, hs⟩ := hsl
  obtain ⟨vs, hv⟩ := hvl
  obtain ⟨p, hp⟩ := hpl
  exact ⟨⟨width, depth, height, vs, p, version⟩,
    decode_eq_ok_iff_selected.mpr ⟨children, size, voxels, palette, h, hall, hs, hv, hp⟩,
    rfl, hs, hv, hp⟩

end Vox
end VoxelCurve
