import Mathlib.Data.List.GetD
import Mathlib.Data.List.Nodup
import VoxelCurve.Proofs.Vox.Distinct
import VoxelCurve.Proofs.Vox.Reading
import VoxelCurve.Vox.Scan

/-!
Columns and the loop that they stand for.

Sorting the distinct values of a column by their first places lists them as a loop would that
goes through the column and remembers what it met (`gather_byFirst`).  The order in which the
distinct values are sorted at first does not matter for this: any list of them, each once, is
brought into the same order.  Scattering the numbers from zero on over this order gives a column
with the inverse permutation, because every place is written exactly once (`getElem?_ranks`), and
reading it at the place of a value among the distinct ones gives the place of the value in the
table of the loop (`gather_ranks`).
-/

namespace VoxelCurve

/-- In a list of distinct images a value's image stands where the value does. -/
theorem idxOf_map_of_nodup {α β : Type} [BEq α] [LawfulBEq α] [BEq β] [LawfulBEq β] {f : α → β}
    {xs : List α} (h : (xs.map f).Nodup) {x : α} (hx : x ∈ xs) :
    (xs.map f).idxOf (f x) = xs.idxOf x := by
  have hlt : xs.idxOf x < (xs.map f).length := by
    rw [List.length_map]
    exact List.idxOf_lt_length_of_mem hx
  have himage : (xs.map f)[xs.idxOf x] = f x := by
    rw [List.getElem_map, List.getElem_idxOf]
  rw [← himage, h.idxOf_getElem]

namespace Column

variable {α : Type}

/-! ## The operations one by one -/

section Unique

variable [Ord α] [Std.TransOrd α] [Std.LawfulEqOrd α]

theorem mem_unique [BEq α] [LawfulBEq α] {column : List α} {x : α} :
    x ∈ unique column ↔ x ∈ column := by
  rw [unique, Std.TreeSet.mem_toList, Std.TreeSet.mem_ofList, List.contains_iff_mem]

theorem nodup_unique (column : List α) : (unique column).Nodup := by
  refine Std.TreeSet.distinct_toList.imp ?_
  intro x y hne heq
  exact hne (Std.compare_eq_iff_eq.mpr heq)

end Unique

theorem argsort_perm (column : List Nat) : (argsort column).Perm (List.range column.length) :=
  List.mergeSort_perm _ _

theorem pairwise_argsort (column : List Nat) :
    (argsort column).Pairwise fun i j => column.getD i 0 ≤ column.getD j 0 := by
  have hsorted : (argsort column).Pairwise fun i j =>
      decide (column.getD i 0 ≤ column.getD j 0) = true := by
    refine List.pairwise_mergeSort ?_ ?_ _
    · intro i j k hij hjk
      exact decide_eq_true (Nat.le_trans (of_decide_eq_true hij) (of_decide_eq_true hjk))
    · intro i j
      rw [Bool.or_eq_true, decide_eq_true_eq, decide_eq_true_eq]
      exact Nat.le_total _ _
  exact hsorted.imp of_decide_eq_true

theorem gather_range [Inhabited α] (column : List α) :
    gather column (List.range column.length) = column := by
  refine List.ext_getElem (by rw [gather, List.length_map, List.length_range]) fun i _ hi => ?_
  simp only [gather, List.getElem_map, List.getElem_range]
  exact List.getD_eq_getElem _ _ hi

theorem getD_places [Inhabited α] [BEq α] {column values : List α} {i : Nat}
    (hi : i < values.length) :
    (places column values).getD i 0 = column.idxOf (values.getD i default) := by
  rw [List.getD_eq_getElem _ _ hi, List.getD_eq_getElem _ _ (by rwa [places, List.length_map])]
  simp only [places, List.getElem_map]

theorem scatter_cons (column : List α) (i : Nat) (is : List Nat) (x : α) (xs : List α) :
    scatter column (i :: is) (x :: xs) = scatter (column.set i x) is xs :=
  rfl

theorem getElem?_scatter_of_notMem {column : List α} {places : List Nat} {values : List α}
    {i : Nat} (h : i ∉ places) : (scatter column places values)[i]? = column[i]? := by
  induction places generalizing column values with
  | nil => rfl
  | cons j places ih =>
    cases values with
    | nil => rfl
    | cons x values =>
      rw [List.mem_cons, not_or] at h
      rw [scatter_cons, ih h.2, List.getElem?_set_ne (Ne.symm h.1)]

/-- A place that is written once keeps what was written. -/
theorem getElem?_scatter {column : List α} {places : List Nat} {values : List α} {i : Nat} {x : α}
    (hplaces : places.Nodup) (hi : i < column.length) (h : (i, x) ∈ places.zip values) :
    (scatter column places values)[i]? = some x := by
  induction places generalizing column values with
  | nil => exact absurd h List.not_mem_nil
  | cons j places ih =>
    cases values with
    | nil => exact absurd h List.not_mem_nil
    | cons y values =>
      rw [List.nodup_cons] at hplaces
      rw [List.zip_cons_cons, List.mem_cons, Prod.mk.injEq] at h
      rw [scatter_cons]
      rcases h with ⟨rfl, rfl⟩ | h
      · rw [getElem?_scatter_of_notMem hplaces.1, List.getElem?_set_self hi]
      · exact ih hplaces.2 (by rwa [List.length_set]) h

theorem foldl_max_le_iff {xs : List Nat} {m n : Nat} :
    xs.foldl max m ≤ n ↔ m ≤ n ∧ ∀ x ∈ xs, x ≤ n := by
  induction xs generalizing m with
  | nil => simp
  | cons x xs ih => rw [List.foldl_cons, ih, List.forall_mem_cons, Nat.max_le, and_assoc]

theorem greatest_le_iff {column : List Nat} {n : Nat} :
    greatest column ≤ n ↔ ∀ x ∈ column, x ≤ n := by
  rw [greatest, foldl_max_le_iff, and_iff_right (Nat.zero_le n)]

end Column

namespace Vox

open Column

/-- The ranks are the inverse of an order of all places. -/
theorem getElem?_ranks {order : List Nat} (h : order.Perm (List.range order.length)) {i : Nat}
    (hi : i ∈ order) : (ranks order)[i]? = some (order.idxOf i) := by
  have hnodup : order.Nodup := h.nodup_iff.mpr List.nodup_range
  have hlt : i < order.length := List.mem_range.mp (h.mem_iff.mp hi)
  have hplace := List.idxOf_lt_length_of_mem hi
  refine getElem?_scatter hnodup (by rwa [List.length_replicate]) ?_
  refine List.mem_iff_getElem.mpr ⟨order.idxOf i, by simpa using hplace, ?_⟩
  rw [List.getElem_zip, List.getElem_idxOf, List.getElem_range]

/-! ## The loop -/

section Keys

variable {κ : Type} [Ord κ] [BEq κ]

/-- The places of the distinct values in the order in which these are first met. -/
def byFirst (keys : List κ) : List Nat :=
  argsort (places keys (unique keys))

theorem byFirst_perm (keys : List κ) :
    (byFirst keys).Perm (List.range (unique keys).length) := by
  have hperm := argsort_perm (places keys (unique keys))
  rwa [places, List.length_map] at hperm

theorem length_byFirst (keys : List κ) : (byFirst keys).length = (unique keys).length := by
  rw [(byFirst_perm keys).length_eq, List.length_range]

theorem lt_of_mem_byFirst {keys : List κ} {i : Nat} (hi : i ∈ byFirst keys) :
    i < (unique keys).length :=
  List.mem_range.mp ((byFirst_perm keys).mem_iff.mp hi)

variable [Std.TransOrd κ] [Std.LawfulEqOrd κ] [LawfulBEq κ]

/-- Sorting the distinct values does not add or lose any of them. -/
theorem unique_perm (keys : List κ) : (unique keys).Perm (firstSeen keys) := by
  rw [List.perm_ext_iff_of_nodup (nodup_unique keys) (nodup_firstSeen keys)]
  intro k
  rw [mem_unique, mem_firstSeen]

/-- The distinct values in the order of their first places are those that a loop lists: both lists
hold the same ones, and the first places ascend in both. -/
theorem gather_byFirst [Inhabited κ] (keys : List κ) :
    gather (unique keys) (byFirst keys) = firstSeen keys := by
  have hperm : (gather (unique keys) (byFirst keys)).Perm (unique keys) := by
    have hperm := (byFirst_perm keys).map fun i => (unique keys).getD i default
    rwa [← gather, ← gather, gather_range] at hperm
  have hsorted : (gather (unique keys) (byFirst keys)).Pairwise fun k l =>
      keys.idxOf k ≤ keys.idxOf l := by
    rw [gather, List.pairwise_map]
    refine (pairwise_argsort _).imp_of_mem fun {i j} hi hj hle => ?_
    rwa [getD_places (lt_of_mem_byFirst hi), getD_places (lt_of_mem_byFirst hj)] at hle
  refine List.Perm.eq_of_pairwise ?_ hsorted ((pairwise_firstSeen keys).imp Nat.le_of_lt)
    (hperm.trans (unique_perm keys))
  intro k l hk _ hkl hlk
  have hmem : k ∈ keys := mem_unique.mp (hperm.mem_iff.mp hk)
  exact (List.idxOf_inj hmem).mp (Nat.le_antisymm hkl hlk)

/-- Reading the ranks at the places of the keys gives the places of the keys in the table. -/
theorem gather_ranks [Inhabited κ] (keys : List κ) :
    gather (ranks (byFirst keys)) (places (unique keys) keys) = places (firstSeen keys) keys := by
  rw [places, gather, List.map_map, places]
  refine List.map_congr_left fun k hk => ?_
  have hmem : k ∈ unique keys := mem_unique.mpr hk
  have hlt := List.idxOf_lt_length_of_mem hmem
  have hplace : (unique keys).idxOf k ∈ byFirst keys :=
    (byFirst_perm keys).mem_iff.mpr (List.mem_range.mpr hlt)
  have hperm : (byFirst keys).Perm (List.range (byFirst keys).length) := by
    rw [length_byFirst]
    exact byFirst_perm keys
  have hkey : (unique keys).getD ((unique keys).idxOf k) default = k := by
    rw [List.getD_eq_getElem _ _ hlt, List.getElem_idxOf]
  have htable : ((byFirst keys).map fun i => (unique keys).getD i default).Nodup := by
    rw [← gather, gather_byFirst]
    exact nodup_firstSeen keys
  have hidx := idxOf_map_of_nodup htable hplace
  rw [← gather, gather_byFirst, hkey] at hidx
  show (ranks (byFirst keys)).getD ((unique keys).idxOf k) default = _
  rw [List.getD_eq_getElem?_getD, getElem?_ranks hperm hplace, Option.getD_some, hidx]

end Keys

section Map

variable {γ κ : Type} [Ord γ] [Std.TransOrd γ] [Std.LawfulEqOrd γ] [BEq γ] [LawfulBEq γ]
  [Ord κ] [Std.TransOrd κ] [Std.LawfulEqOrd κ] [BEq κ] [LawfulBEq κ]
  {f : γ → κ} (hf : Function.Injective f) (xs : List γ)

include hf

theorem firstSeen_map_of_injective : firstSeen (xs.map f) = (firstSeen xs).map f :=
  firstSeen_map fun _ _ _ _ h => hf h

theorem length_unique_map : (unique (xs.map f)).length = (firstSeen xs).length := by
  rw [(unique_perm _).length_eq, firstSeen_map_of_injective hf, List.length_map]

theorem places_firstSeen_map :
    places (firstSeen (xs.map f)) (xs.map f) = places (firstSeen xs) xs := by
  have hnodup : ((firstSeen xs).map f).Nodup := (nodup_firstSeen xs).map hf
  rw [places, places, List.map_map, firstSeen_map_of_injective hf]
  exact List.map_congr_left fun x hx => idxOf_map_of_nodup hnodup (mem_firstSeen.mpr hx)

/-- What stands at the first places of the keys has these keys, and so it is what the loop lists. -/
theorem gather_firstPlaces [Inhabited γ] [Inhabited κ] :
    gather xs (gather (places (xs.map f) (unique (xs.map f))) (byFirst (xs.map f))) =
      firstSeen xs := by
  refine List.map_injective_iff.mpr hf ?_
  rw [← firstSeen_map_of_injective hf, ← gather_byFirst, gather, gather, gather, List.map_map,
    List.map_map]
  refine List.map_congr_left fun i hi => ?_
  have hi := lt_of_mem_byFirst hi
  have hkey : (unique (xs.map f)).getD i default ∈ xs.map f := by
    rw [← mem_unique, List.getD_eq_getElem _ _ hi]
    exact List.getElem_mem hi
  have hplace := List.idxOf_lt_length_of_mem hkey
  show f (xs.getD ((places (xs.map f) (unique (xs.map f))).getD i 0) default) = _
  rw [getD_places hi, List.getD_eq_getElem _ _ (by rwa [List.length_map] at hplace)]
  exact (List.getElem_map f).symm.trans (List.getElem_idxOf hplace)

end Map
end Vox
end VoxelCurve
