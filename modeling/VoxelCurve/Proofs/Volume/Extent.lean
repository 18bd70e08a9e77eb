import Mathlib.Algebra.BigOperators.Group.List.Lemmas
import Mathlib.Algebra.BigOperators.Ring.List
import Mathlib.Algebra.Order.Ring.Nat
import VoxelCurve.Volume.Buffer

/-!
Cells and their numbers.

`index` and `cell` are inverse to each other between the cells of a box and the numbers
below its count.  One of the two ways asks for nothing: even a number past the count is put
together again from its three parts.

The bytes of a box are counted by multiplying its sides one after the other, and counting is given
up as soon as a product is past what is addressable.  `Passable` says that this does not happen on
the way.
-/

namespace VoxelCurve
namespace Extent

theorem index_cell (e : Extent) (i : Nat) : e.index (e.cell i) = i := by
  simp only [index, cell]
  rw [Nat.mod_add_div', Nat.mod_add_div']

/-- Where a cell has a number, neither divisor is zero. -/
theorem divisors_pos {e : Extent} {i : Nat} (h : i < e.count) :
    0 < e.width * e.depth ∧ 0 < e.width := by
  have hplane : 0 < e.width * e.depth := Nat.pos_of_mul_pos_right (Nat.zero_lt_of_lt h)
  exact ⟨hplane, Nat.pos_of_mul_pos_right hplane⟩

theorem contains_cell {e : Extent} {i : Nat} (h : i < e.count) : e.Contains (e.cell i) := by
  obtain ⟨hplane, hwidth⟩ := divisors_pos h
  have hmod := Nat.mod_lt i hplane
  exact ⟨Nat.mod_lt _ hwidth, Nat.div_lt_of_lt_mul hmod, Nat.div_lt_of_lt_mul h⟩

theorem cell_index {e : Extent} {c : Cell} (h : e.Contains c) : e.cell (e.index c) = c := by
  obtain ⟨hx, hy, hz⟩ := h
  have hplane : c.x + c.y * e.width < e.width * e.depth := add_mul_lt hx hy
  have hmod : e.index c % (e.width * e.depth) = c.x + c.y * e.width := by
    rw [index, Nat.add_mul_mod_self_right, Nat.mod_eq_of_lt hplane]
  have hdiv : e.index c / (e.width * e.depth) = c.z := by
    rw [index, Nat.add_mul_div_right _ _ (Nat.zero_lt_of_lt hplane), Nat.div_eq_of_lt hplane,
      Nat.zero_add]
  simp only [cell, hmod, hdiv]
  rw [Nat.add_mul_mod_self_right, Nat.mod_eq_of_lt hx,
    Nat.add_mul_div_right _ _ (Nat.zero_lt_of_lt hx), Nat.div_eq_of_lt hx, Nat.zero_add]

theorem index_inj {e : Extent} {c d : Cell} (hc : e.Contains c) (hd : e.Contains d) :
    e.index c = e.index d ↔ c = d := by
  constructor
  · intro h
    rw [← cell_index hc, h, cell_index hd]
  · intro h
    rw [h]

end Extent

/-! ## Products of sides -/

/-- No product on the way through some sides is past what is addressable. -/
def Passable (size : Nat) (sides : List Nat) : Prop :=
  ∀ front, front <+: sides → size * front.prod ≤ addressable

section Passable

variable {size side : Nat} {sides : List Nat}

theorem Passable.le (h : Passable size sides) : size * sides.prod ≤ addressable :=
  h sides List.prefix_rfl

theorem passable_nil_iff : Passable size [] ↔ size ≤ addressable := by
  constructor
  · intro h
    simpa using h.le
  · intro h front hfront
    rw [List.prefix_nil.mp hfront, List.prod_nil, Nat.mul_one]
    exact h

theorem passable_cons_iff :
    Passable size (side :: sides) ↔ size ≤ addressable ∧ Passable (size * side) sides := by
  constructor
  · intro h
    refine ⟨?_, ?_⟩
    · simpa using h [] List.nil_prefix
    · intro front hfront
      have hlonger := h (side :: front) (List.cons_prefix_cons.mpr ⟨rfl, hfront⟩)
      rwa [List.prod_cons, ← Nat.mul_assoc] at hlonger
  · intro h front hfront
    obtain ⟨hsize, hrest⟩ := h
    rcases List.prefix_cons_iff.mp hfront with rfl | ⟨front', rfl, hfront'⟩
    · rw [List.prod_nil, Nat.mul_one]
      exact hsize
    · rw [List.prod_cons, ← Nat.mul_assoc]
      exact hrest front' hfront'

/-- Where no side is zero, no product on the way is larger than the last one. -/
theorem passable_of_prod_ne_zero (hne : sides.prod ≠ 0)
    (h : size * sides.prod ≤ addressable) : Passable size sides := by
  intro front hfront
  have hle : front.prod ≤ sides.prod :=
    Nat.le_of_dvd (Nat.pos_of_ne_zero hne) hfront.sublist.prod_dvd_prod
  exact (Nat.mul_le_mul_left size hle).trans h

theorem passable_zero_cons (h : size ≤ addressable) : Passable size (0 :: sides) := by
  refine passable_cons_iff.mpr ⟨h, ?_⟩
  intro front _
  rw [Nat.mul_zero, Nat.zero_mul]
  exact Nat.zero_le _

/-- The sides can be passed in every order exactly when those that are not zero can be passed
before the others. -/
theorem forall_perm_passable_iff :
    (∀ sides' : List Nat, sides'.Perm sides → Passable size sides') ↔
      size * (sides.filter (· != 0)).prod ≤ addressable := by
  have hne : ∀ l : List Nat, (l.filter (· != 0)).prod ≠ 0 := by
    intro l
    refine List.prod_ne_zero ?_
    intro hmem
    simpa using (List.mem_filter.mp hmem).2
  constructor
  · intro h
    exact h _ (List.filter_append_perm (· != 0) sides) _ (List.prefix_append _ _)
  · intro h sides' hperm front hfront
    by_cases hzero : front.prod = 0
    · rw [hzero, Nat.mul_zero]
      exact Nat.zero_le _
    · have hall : front.filter (· != 0) = front := by
        rw [List.filter_eq_self]
        intro side hside
        rw [bne_iff_ne]
        rintro rfl
        exact hzero (List.prod_eq_zero hside)
      have hsub : front.Sublist (sides'.filter (· != 0)) := hall ▸ hfront.sublist.filter _
      have hle : front.prod ≤ (sides.filter (· != 0)).prod := by
        rw [← (hperm.filter _).prod_eq]
        exact Nat.le_of_dvd (Nat.pos_of_ne_zero (hne sides')) hsub.prod_dvd_prod
      exact (Nat.mul_le_mul_left size hle).trans h

/-! ## The count -/

theorem byteLength?_cons_of_le (h : size * side ≤ addressable) (rest : List Int) :
    byteLength? size (side :: rest) = byteLength? (size * side : Nat) rest := by
  have hnot : ¬((size : Int) * side > addressable) := by exact_mod_cast Nat.not_lt.mpr h
  rw [byteLength?, if_neg hnot, Int.natCast_mul]

theorem byteLength?_of_passable (h : Passable size sides) :
    byteLength? size (sides.map (↑)) = some ((size * sides.prod : Nat) : Int) := by
  induction sides generalizing size with
  | nil => simp [byteLength?]
  | cons side sides ih =>
    obtain ⟨-, hrest⟩ := passable_cons_iff.mp h
    have hside : size * side ≤ addressable := by simpa using hrest [] List.nil_prefix
    rw [List.map_cons, byteLength?_cons_of_le hside, ih hrest, List.prod_cons, Nat.mul_assoc]

theorem byteLength?_of_not_passable (hsize : size ≤ addressable) (h : ¬Passable size sides) :
    byteLength? size (sides.map (↑)) = none := by
  induction sides generalizing size with
  | nil => exact absurd (passable_nil_iff.mpr hsize) h
  | cons side sides ih =>
    rw [List.map_cons]
    by_cases hside : size * side ≤ addressable
    · rw [byteLength?_cons_of_le hside]
      exact ih hside fun hrest => h (passable_cons_iff.mpr ⟨hsize, hrest⟩)
    · exact if_pos (by exact_mod_cast Nat.lt_of_not_le hside)

/-- The bytes that some sides need, where these are addressable. -/
def exactLength? (size : Nat) (sides : List Nat) : Option Int :=
  if size * sides.prod ≤ addressable then some ((size * sides.prod : Nat) : Int) else none

theorem byteLength?_eq_exactLength?_iff (hsize : size ≤ addressable) :
    byteLength? size (sides.map (↑)) = exactLength? size sides ↔
      (sides.prod = 0 → Passable size sides) := by
  by_cases hpass : Passable size sides
  · rw [byteLength?_of_passable hpass, exactLength?, if_pos hpass.le]
    exact iff_of_true rfl fun _ => hpass
  · rw [byteLength?_of_not_passable hsize hpass, exactLength?]
    by_cases hzero : sides.prod = 0
    · rw [hzero, Nat.mul_zero, if_pos (Nat.zero_le _)]
      exact iff_of_false nofun fun h => hpass (h rfl)
    · rw [if_neg fun hle => hpass (passable_of_prod_ne_zero hzero hle)]
      exact iff_of_true rfl fun h => absurd h hzero

theorem exactLength?_perm {sides' : List Nat} (h : sides'.Perm sides) :
    exactLength? size sides' = exactLength? size sides := by
  rw [exactLength?, exactLength?, h.prod_eq]

theorem forall_perm_byteLength?_eq_iff (hsize : size ≤ addressable) :
    (∀ sides' : List Nat, sides'.Perm sides →
        byteLength? size (sides'.map (↑)) = byteLength? size (sides.map (↑))) ↔
      (sides.prod = 0 → size * (sides.filter (· != 0)).prod ≤ addressable) := by
  constructor
  · intro h hzero
    rw [← forall_perm_passable_iff]
    intro sides' hperm
    -- with a zero in front some count is given, so it is given in every order
    have hfront : (0 :: sides.erase 0).Perm sides :=
      (List.perm_cons_erase (List.prod_eq_zero_iff.mp hzero)).symm
    have hcount := (h _ hfront).symm.trans (byteLength?_of_passable (passable_zero_cons hsize))
    by_contra hpass
    rw [← h _ hperm, byteLength?_of_not_passable hsize hpass] at hcount
    cases hcount
  · intro h sides' hperm
    have hexact : ∀ sides' : List Nat, sides'.Perm sides →
        byteLength? size (sides'.map (↑)) = exactLength? size sides' := by
      intro sides' hperm
      rw [byteLength?_eq_exactLength?_iff hsize, hperm.prod_eq]
      exact fun hzero => forall_perm_passable_iff.mpr (h hzero) _ hperm
    rw [hexact _ hperm, hexact _ (List.Perm.refl _), exactLength?_perm hperm]

end Passable

/-! ## Sizes -/

theorem Kind.size_le_addressable (k : Kind) : k.size ≤ addressable :=
  k.size_le.trans (by decide)

namespace Extent

variable {k : Kind} {e : Extent}

/-- The sides as numbers. -/
def lengths (e : Extent) : List Nat :=
  [e.width, e.depth, e.height]

theorem map_lengths : e.lengths.map (↑) = e.sides := rfl

theorem prod_lengths : e.lengths.prod = e.count := by
  simp [lengths, count, Nat.mul_assoc]

theorem isShapeable_iff :
    e.isShapeable k.size = true ↔ k.size * (e.lengths.filter (· != 0)).prod ≤ addressable := by
  have hsize : (k.size != 0) = true := bne_iff_ne.mpr k.size_pos.ne'
  have hperm : [e.height, e.depth, e.width, k.size].Perm (k.size :: e.lengths) :=
    (k.size :: e.lengths).reverse_perm
  have hprod : ([e.height, e.depth, e.width, k.size].filter (· != 0)).foldl (· * ·) 1 =
      k.size * (e.lengths.filter (· != 0)).prod := by
    rw [← List.prod_eq_foldl, (hperm.filter _).prod_eq, List.filter_cons_of_pos (by exact hsize),
      List.prod_cons]
  rw [isShapeable, hprod, decide_eq_true_eq]

/-- A box that has a layout has storage: the products that are looked at on the way to its
size are not larger than that of the layout, even where the size itself is zero. -/
theorem exists_byteLength? (h : e.isShapeable k.size = true) :
    ∃ n, byteLength? k.size e.sides = some n := by
  have hpass := forall_perm_passable_iff.mpr (isShapeable_iff.mp h) _ (List.Perm.refl _)
  exact ⟨_, byteLength?_of_passable hpass⟩

theorem passable_of_byteLength? {n : Int} (h : byteLength? k.size e.sides = some n) :
    Passable k.size e.lengths := by
  by_contra hpass
  rw [← map_lengths, byteLength?_of_not_passable k.size_le_addressable hpass] at h
  cases h

/-- A count that is given is the number of the bytes. -/
theorem eq_of_byteLength? {n : Int} (h : byteLength? k.size e.sides = some n) :
    n = (e.count * k.size : Nat) := by
  have hcount := byteLength?_of_passable (passable_of_byteLength? h)
  rw [map_lengths, h, prod_lengths, Nat.mul_comm] at hcount
  exact Option.some.inj hcount

/-- Where no side is zero, storage is all that a layout asks for. -/
theorem isShapeable_of_byteLength? (hsides : 0 < e.width ∧ 0 < e.depth ∧ 0 < e.height) {n : Int}
    (h : byteLength? k.size e.sides = some n) : e.isShapeable k.size = true := by
  have hpass := passable_of_byteLength? h
  have hall : e.lengths.filter (· != 0) = e.lengths := by
    simp [lengths, hsides.1.ne', hsides.2.1.ne', hsides.2.2.ne']
  rw [isShapeable_iff, hall]
  exact hpass.le

end Extent
end VoxelCurve
