import Mathlib.Data.List.Forall2
import Mathlib.Logic.Basic

/-!
When a computation that may fail succeeds.

A result is there exactly when every part has one, so a proof about a success can be taken
apart along these equivalences.
-/

namespace VoxelCurve

variable {ε α β : Type}

theorem bind_eq_ok_iff {x : Except ε α} {f : α → Except ε β} {b : β} :
    x >>= f = .ok b ↔ ∃ a, x = .ok a ∧ f a = .ok b := by
  cases x with
  | error fault =>
    constructor
    · intro h
      cases h
    · intro h
      obtain ⟨a, h, -⟩ := h
      cases h
  | ok a =>
    constructor
    · intro h
      exact ⟨a, rfl, h⟩
    · intro h
      obtain ⟨a', h, hf⟩ := h
      cases h
      exact hf

theorem mapError_eq_ok_iff {ε' : Type} {x : Except ε α} {f : ε → ε'} {a : α} :
    x.mapError f = .ok a ↔ x = .ok a := by
  cases x with
  | error fault =>
    constructor
    · intro h
      cases h
    · intro h
      cases h
  | ok a' =>
    constructor
    · intro h
      cases h
      rfl
    · intro h
      cases h
      rfl

theorem mapError_eq_error_iff {ε' : Type} {x : Except ε α} {f : ε → ε'} {fault : ε'} :
    x.mapError f = .error fault ↔ ∃ cause, x = .error cause ∧ fault = f cause := by
  cases x with
  | error cause =>
    show Except.error (f cause) = .error fault ↔ _
    simp only [Except.error.injEq, exists_eq_left', eq_comm]
  | ok a =>
    constructor
    · intro h
      cases h
    · intro h
      obtain ⟨cause, h, -⟩ := h
      cases h

theorem map_eq_ok_iff {f : α → β} {x : Except ε α} {b : β} :
    f <$> x = .ok b ↔ ∃ a, x = .ok a ∧ f a = b := by
  cases x with
  | error fault =>
    constructor
    · intro h
      cases h
    · intro h
      obtain ⟨a, h, -⟩ := h
      cases h
  | ok a =>
    show Except.ok (f a) = .ok b ↔ _
    simp only [Except.ok.injEq, exists_eq_left']

theorem map_eq_error_iff {f : α → β} {x : Except ε α} {fault : ε} :
    f <$> x = .error fault ↔ x = .error fault := by
  cases x with
  | error fault' =>
    show Except.error fault' = .error fault ↔ _
    simp only [Except.error.injEq]
  | ok a =>
    constructor
    · intro h
      cases h
    · intro h
      cases h

theorem mapM_eq_ok_iff {f : α → Except ε β} {xs : List α} {ys : List β} :
    xs.mapM f = .ok ys ↔ List.Forall₂ (fun x y => f x = .ok y) xs ys := by
  induction xs generalizing ys with
  | nil =>
    rw [List.mapM_nil, List.forall₂_nil_left_iff]
    show Except.ok [] = Except.ok ys ↔ ys = []
    rw [Except.ok.injEq, eq_comm]
  | cons x xs ih =>
    rw [List.mapM_cons, bind_eq_ok_iff, List.forall₂_cons_left_iff]
    refine exists_congr fun y => ?_
    rw [bind_eq_ok_iff]
    constructor
    · intro h
      obtain ⟨hx, ys', hxs, hys⟩ := h
      exact ⟨ys', hx, ih.mp hxs, (Except.ok.inj hys).symm⟩
    · intro h
      obtain ⟨ys', hx, hxs, rfl⟩ := h
      exact ⟨hx, ys', ih.mpr hxs, rfl⟩

/-- A list is gone through up to the first failure. -/
theorem mapM_eq_error_iff {f : α → Except ε β} {xs : List α} {fault : ε} :
    xs.mapM f = .error fault ↔ ∃ before x after, xs = before ++ x :: after ∧
      (∀ y ∈ before, ∃ b, f y = .ok b) ∧ f x = .error fault := by
  induction xs with
  | nil =>
    rw [List.mapM_nil]
    constructor
    · intro h
      cases h
    · rintro ⟨before, x, after, h, -, -⟩
      exact absurd h.symm (List.append_ne_nil_of_right_ne_nil _ (List.cons_ne_nil _ _))
  | cons x xs ih =>
    rw [List.mapM_cons]
    cases hx : f x with
    | error fault' =>
      show Except.error fault' = .error fault ↔ _
      constructor
      · intro h
        exact ⟨[], x, xs, rfl, List.forall_mem_nil _, hx.trans (congrArg _ (Except.error.inj h))⟩
      · rintro ⟨_ | ⟨y, before⟩, z, after, hsplit, hbefore, hz⟩
        · obtain ⟨rfl, -⟩ := List.cons.inj hsplit
          exact congrArg _ (Except.error.inj (hx.symm.trans hz))
        · obtain ⟨rfl, -⟩ := List.cons.inj hsplit
          obtain ⟨b, hb⟩ := hbefore x List.mem_cons_self
          cases hx.symm.trans hb
    | ok b =>
      have hrest : (do let ys ← xs.mapM f; pure (b :: ys)) = .error fault ↔
          xs.mapM f = .error fault := map_eq_error_iff (f := (b :: ·))
      refine hrest.trans (ih.trans ?_)
      constructor
      · rintro ⟨before, z, after, rfl, hbefore, hz⟩
        exact ⟨x :: before, z, after, rfl, List.forall_mem_cons.mpr ⟨⟨b, hx⟩, hbefore⟩, hz⟩
      · rintro ⟨_ | ⟨y, before⟩, z, after, hsplit, hbefore, hz⟩
        · obtain ⟨rfl, -⟩ := List.cons.inj hsplit
          cases hx.symm.trans hz
        · obtain ⟨-, rfl⟩ := List.cons.inj hsplit
          exact ⟨before, z, after, rfl, (List.forall_mem_cons.mp hbefore).2, hz⟩

theorem exists_mapM_eq_error {f : α → Except ε β} {xs : List α}
    (h : ∃ x ∈ xs, ∃ fault, f x = .error fault) : ∃ fault, xs.mapM f = .error fault := by
  cases hm : xs.mapM f with
  | error fault => exact ⟨fault, rfl⟩
  | ok ys =>
    obtain ⟨x, hx, fault, hfault⟩ := h
    obtain ⟨i, hi, rfl⟩ := List.mem_iff_getElem.mp hx
    have hall := mapM_eq_ok_iff.mp hm
    cases hfault.symm.trans (hall.get hi (hall.length_eq ▸ hi))

theorem toOption_eq_some_iff {x : Except ε α} {a : α} : x.toOption = some a ↔ x = .ok a := by
  cases x with
  | error fault => simp only [Except.toOption, reduceCtorEq]
  | ok a' => simp only [Except.toOption, Option.some.injEq, Except.ok.injEq]

/-- The last one that is searched for is there. -/
theorem of_findRev?_eq_some {xs : List α} {p : α → Bool} {x : α} (h : xs.findRev? p = some x) :
    x ∈ xs ∧ p x = true := by
  rw [List.findRev?_eq_find?_reverse] at h
  exact ⟨List.mem_reverse.mp (List.mem_of_find?_eq_some h), List.find?_some h⟩

theorem findRev?_of_filter {xs : List α} {p : α → Bool} {x : α} (h : xs.filter p = [x]) :
    xs.findRev? p = some x := by
  rw [List.findRev?_eq_find?_reverse, ← List.getLast?_filter, h]
  rfl

end VoxelCurve
