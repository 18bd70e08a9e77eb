/-!
Little-endian words of four bytes.

Reading takes the bytes of one word off the front of its input, so that words are read one
behind the other.
-/

namespace VoxelCurve
namespace Vox

/-- The greatest number a word holds. -/
def maxWord : Nat := 0xFFFFFFFF

/-- The bytes of a word, the least significant first. -/
def wordBytes (w : UInt32) : List UInt8 :=
  let n := w.toNat
  [UInt8.ofNat n, UInt8.ofNat (n / 0x100), UInt8.ofNat (n / 0x10000),
   UInt8.ofNat (n / 0x1000000)]

/-- The word of four bytes. -/
def wordOf (a b c d : UInt8) : UInt32 :=
  UInt32.ofNat (a.toNat + 0x100 * (b.toNat + 0x100 * (c.toNat + 0x100 * d.toNat)))

/-- A word and what follows it. -/
def readWord? : List UInt8 → Option (UInt32 × List UInt8)
  | a :: b :: c :: d :: rest => some (wordOf a b c d, rest)
  | _ => none

@[simp]
theorem length_wordBytes (w : UInt32) : (wordBytes w).length = 4 := rfl

theorem readWord?_wordBytes (w : UInt32) (rest : List UInt8) :
    readWord? (wordBytes w ++ rest) = some (w, rest) := by
  have hw := w.toNat_lt
  suffices wordOf (UInt8.ofNat w.toNat) (UInt8.ofNat (w.toNat / 0x100))
      (UInt8.ofNat (w.toNat / 0x10000)) (UInt8.ofNat (w.toNat / 0x1000000)) = w by
    simp only [readWord?, wordBytes, List.cons_append, List.nil_append, this]
  apply UInt32.toNat.inj
  simp only [wordOf, UInt32.toNat_ofNat', UInt8.toNat_ofNat']
  omega

theorem length_of_readWord? {s rest : List UInt8} {w : UInt32}
    (h : readWord? s = some (w, rest)) : s.length = rest.length + 4 := by
  unfold readWord? at h
  split at h
  · simp only [Option.some.injEq, Prod.mk.injEq] at h
    simp [← h.2]
  · simp at h

/-- Groups of four bytes, `n` of them, in order behind `acc`, which holds those before them
backwards. -/
def readQuads? {α : Type} (make : UInt8 → UInt8 → UInt8 → UInt8 → α) :
    Nat → List UInt8 → List α → Option (List α)
  | 0, _, acc => some acc.reverse
  | n + 1, a :: b :: c :: d :: rest, acc => readQuads? make n rest (make a b c d :: acc)
  | _ + 1, _, _ => none

end Vox
end VoxelCurve
