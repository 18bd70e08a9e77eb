import VoxelCurve.Proofs.Volume.Extent

/-!
How many bytes a box needs.

The sides are multiplied one after the other, and the count is given up as soon as a product is
past what is addressable.  A side of zero leaves nothing to store, but where it comes last the
products before it have already been looked at.  So every count that is given is right, and
whatever is too large is refused, but a box without cells may be refused as well, and whether it
is depends on the order of its sides.  `storage_exact_iff` says for which boxes this does not
happen.
-/

namespace VoxelCurve

/-- Counting any numbers is counting integers where all of them are. -/
theorem byteLengthOf_int (size : Int) (sides : List Int) :
    byteLengthOf (.int size) (sides.map .int) = .ok ((byteLength? size sides).map .int) := by
  induction sides generalizing size with
  | nil => rfl
  | cons side sides ih =>
    show (if decide (size * side > addressable) then Except.ok none
      else byteLengthOf (.int (size * side)) (sides.map .int)) = _
    rw [byteLength?, ih]
    by_cases hpast : size * side > addressable
    · rw [if_pos (decide_eq_true hpast), if_pos hpast]
      rfl
    · rw [if_neg (by simpa using hpast), if_neg hpast]

/-! ## Boxes -/

namespace Extent

variable (k : Kind) (e : Extent)

/-- The answer about the bytes of a box. -/
def storage : Except NumberFault (Option Number) :=
  byteLengthOf (.int k.size) (e.sides.map .int)

/-- The answer is the number of bytes, or nothing where these are too many to be addressed. -/
def CountsExactly : Prop :=
  e.storage k = .ok (if k.size * e.count ≤ addressable then some (.int (k.size * e.count : Nat))
    else none)

/-- Storage for a box is refused because it is too large. -/
def Overflows : Prop :=
  Buffer.declare (.int e.width) (.int e.depth) (.int e.height) (.ok k) =
    .error (.overflow e k.size)

/-- The answer, and whether storage is refused, are the same for the sides in any order. -/
def AnswersAlike : Prop :=
  ∀ e' : Extent, e'.sides.Perm e.sides →
    e'.storage k = e.storage k ∧ (e'.Overflows k ↔ e.Overflows k)

variable {k e}

theorem perm_sides_iff {e' : Extent} : e'.sides.Perm e.sides ↔ e'.lengths.Perm e.lengths := by
  rw [← map_lengths, ← map_lengths]
  exact List.map_perm_map_iff fun _ _ => Int.natCast_inj.mp

theorem exists_lengths_eq {l : List Nat} (h : l.Perm e.lengths) :
    ∃ e' : Extent, e'.lengths = l := by
  obtain ⟨w, d, t, rfl⟩ := List.length_eq_three.mp h.length_eq
  exact ⟨⟨w, d, t⟩, rfl⟩

theorem storage_eq : e.storage k = .ok ((byteLength? k.size e.sides).map .int) :=
  byteLengthOf_int _ _

theorem storage_eq_iff {n? : Option Int} :
    e.storage k = .ok (n?.map .int) ↔ byteLength? k.size e.sides = n? := by
  rw [storage_eq, Except.ok.injEq]
  exact (Option.map_injective fun _ _ h => Number.int.inj h).eq_iff

theorem overflows_iff : e.Overflows k ↔ e.storage k = .ok none := by
  have hofSides : ofSides (.int e.width) (.int e.depth) (.int e.height) = .ok e := by
    simp only [ofSides, Value.index?]
    rw [if_pos ⟨Int.natCast_nonneg _, Int.natCast_nonneg _, Int.natCast_nonneg _⟩]
    rfl
  have hdeclare : Buffer.declare (.int e.width) (.int e.depth) (.int e.height) (.ok k) =
      (Buffer.allocate k e).map fun b => ⟨k, b⟩ := by
    rw [Buffer.declare, hofSides]
    rfl
  have hnone : e.storage k = .ok none ↔ byteLength? k.size e.sides = none := by
    rw [← storage_eq_iff, Option.map_none]
  rw [Overflows, hdeclare, Buffer.allocate, hnone]
  cases byteLength? k.size e.sides with
  | none => exact iff_of_true rfl rfl
  | some n => exact iff_of_false nofun nofun

theorem countsExactly_iff :
    e.CountsExactly k ↔ byteLength? k.size e.sides = exactLength? k.size e.lengths := by
  have hexact : (exactLength? k.size e.lengths).map Number.int =
      if k.size * e.count ≤ addressable then some (.int (k.size * e.count : Nat)) else none := by
    rw [exactLength?, prod_lengths]
    split <;> rfl
  rw [← storage_eq_iff, hexact, CountsExactly]

theorem answersAlike_iff :
    e.AnswersAlike k ↔ ∀ l : List Nat, l.Perm e.lengths →
      byteLength? k.size (l.map (↑)) = byteLength? k.size (e.lengths.map (↑)) := by
  constructor
  · intro h l hperm
    obtain ⟨e', rfl⟩ := exists_lengths_eq hperm
    have hanswer := (h e' (perm_sides_iff.mpr hperm)).1
    rwa [storage_eq (e := e), storage_eq_iff] at hanswer
  · intro h e' hperm
    have hanswer : e'.storage k = e.storage k := by
      rw [storage_eq, storage_eq, ← map_lengths, h _ (perm_sides_iff.mp hperm)]
      rfl
    exact ⟨hanswer, by rw [overflows_iff, overflows_iff, hanswer]⟩

/-- The two products that are looked at before the last side. -/
theorem passable_lengths_iff (h : e.count = 0) :
    Passable k.size e.lengths ↔
      k.size * e.width ≤ addressable ∧ k.size * e.width * e.depth ≤ addressable := by
  have hlast : k.size * e.width * e.depth * e.height ≤ addressable := by
    rw [Nat.mul_assoc k.size, Nat.mul_assoc k.size]
    exact (Nat.mul_eq_zero.mpr (.inr h)).trans_le (Nat.zero_le _)
  rw [lengths, passable_cons_iff, passable_cons_iff, passable_cons_iff, passable_nil_iff]
  constructor
  · rintro ⟨-, hw, hd, -⟩
    exact ⟨hw, hd⟩
  · rintro ⟨hw, hd⟩
    exact ⟨k.size_le_addressable, hw, hd, hlast⟩

/-- The bytes of a box are counted exactly unless it has no cell and yet a product of its first
sides is past what is addressable, when it is refused.  The order of the sides does not matter
unless the box has no cell and no layout either; then they are counted exactly as well. -/
theorem storage_exact_iff (k : Kind) (e : Extent) :
    (e.CountsExactly k ↔ (e.count = 0 →
      k.size * e.width ≤ addressable ∧ k.size * e.width * e.depth ≤ addressable)) ∧
    (¬e.CountsExactly k → e.count = 0 ∧ e.storage k = .ok none) ∧
    (e.AnswersAlike k ↔ (e.count = 0 → e.isShapeable k.size = true)) ∧
    (e.AnswersAlike k → e.CountsExactly k) ∧
    (e.Overflows k ↔ e.storage k = .ok none) := by
  have hexact : e.CountsExactly k ↔ (e.count = 0 → Passable k.size e.lengths) := by
    rw [countsExactly_iff, ← map_lengths, byteLength?_eq_exactLength?_iff k.size_le_addressable,
      prod_lengths]
  have halike : e.AnswersAlike k ↔ (e.count = 0 →
      k.size * (e.lengths.filter (· != 0)).prod ≤ addressable) := by
    rw [answersAlike_iff, forall_perm_byteLength?_eq_iff k.size_le_addressable, prod_lengths]
  refine ⟨?_, ?_, ?_, ?_, overflows_iff⟩
  · rw [hexact]
    exact forall_congr' passable_lengths_iff
  · intro h
    rw [hexact, Classical.not_imp] at h
    obtain ⟨hzero, hpass⟩ := h
    refine ⟨hzero, ?_⟩
    rw [storage_eq, ← map_lengths, byteLength?_of_not_passable k.size_le_addressable hpass]
    rfl
  · rw [halike, isShapeable_iff]
  · intro h
    rw [hexact]
    intro hzero
    exact forall_perm_passable_iff.mpr (halike.mp h hzero) _ (List.Perm.refl _)

/-- A box of 2^40 columns in each direction, and no height. -/
def flat : Extent := ⟨2 ^ 40, 2 ^ 40, 0⟩

theorem not_exact_flat : flat.storage .rgba = .ok none ∧ ¬flat.CountsExactly .rgba ∧
    ¬flat.AnswersAlike .rgba := by
  have hflat : flat.storage .rgba = .ok none := rfl
  have hturned : (⟨0, 2 ^ 40, 2 ^ 40⟩ : Extent).storage .rgba = .ok (some (.int 0)) := rfl
  have hperm : (⟨0, 2 ^ 40, 2 ^ 40⟩ : Extent).sides.Perm flat.sides := by decide
  refine ⟨hflat, ?_, ?_⟩
  · intro h
    rw [CountsExactly, hflat] at h
    cases h
  · intro h
    have hsame := (h _ hperm).1
    rw [hflat, hturned] at hsame
    cases hsame

end Extent
end VoxelCurve
