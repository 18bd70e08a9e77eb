import VoxelCurve.Proofs.Vox.Places
import VoxelCurve.Proofs.Vox.RoundTrip

/-!
Files that were cut.

All that follows the signature and the version in the file of a model is one chunk.  Wherever the
file is cut, this chunk is the first thing that the walk comes to, and it is not whole: either its
header is cut, or the header is there and counts more bytes than are left.  So nothing behind the
header is looked at, and it does not matter what stands at the cut.  `decode_cut` says what is
wrong with the file by the length that is left of it.
-/

namespace VoxelCurve
namespace Vox

/-! ## A chunk that was cut -/

namespace Chunk

variable {c : Chunk} {n : Nat}

theorem readHeader?_take_eq_none (h : n < headerSize) : readHeader? (c.bytes.take n) = none := by
  have hshort : (c.bytes.take n).length < headerSize := by
    rw [List.length_take]
    omega
  exact eq_none_of_lt hshort exists_readHeader?_iff

theorem readHeader?_take_bytes (h : headerSize ≤ n) :
    readHeader? (c.bytes.take n) =
      some ⟨c.id, UInt32.ofNat c.content.length, UInt32.ofNat c.children.length,
        (c.content ++ c.children).take (n - headerSize)⟩ := by
  have hheader : (c.id ++ wordBytes (UInt32.ofNat c.content.length) ++
      wordBytes (UInt32.ofNat c.children.length)).length = headerSize := by
    simp only [List.length_append, length_wordBytes, c.id_length, headerSize]
  rw [readHeader?_eq_some_iff]
  refine ⟨c.id_length, ?_⟩
  rw [bytes, List.append_assoc _ c.content, List.take_append, hheader,
    List.take_of_length_le (by rw [hheader]; exact h)]

end Chunk

/-- What the walk finds wrong with a chunk of which `n` bytes are left.  Where nothing is left, it
does not come to the chunk. -/
def Chunk.cutFault? (c : Chunk) (total offset n : Nat) : Option FormatFault :=
  if n = 0 then none
  else if n < headerSize then some (.truncated (offset + 4) 8 total)
  else some (.pastParent c.id offset)

/-- The walk ends at a chunk that was cut, without having shown it. -/
theorem walk_take_bytes {c : Chunk} {n : Nat} (h : n < c.bytes.length) (total offset : Nat) :
    walk total (offset + n) offset (c.bytes.take n) = ⟨[], c.cutFault? total offset n⟩ := by
  rw [Chunk.cutFault?]
  by_cases hempty : n = 0
  · rw [if_pos hempty]
    exact walk_of_le (by omega)
  rw [if_neg hempty]
  have hlt : offset < offset + n := by omega
  by_cases hn : n < headerSize
  · rw [if_pos hn]
    exact walk_of_no_header hlt (Chunk.readHeader?_take_eq_none hn)
  · have hread := Chunk.readHeader?_take_bytes (c := c) (Nat.le_of_not_lt hn)
    rw [if_neg hn, walk_of_header hlt hread rfl]
    refine if_pos ?_
    rw [c.length_bytes] at h
    simp only [Window.stop, Window.childrenOffset, c.toNat_content, c.toNat_children]
    omega

/-! ## A file that was cut -/

theorem decode_of_short {cut : List UInt8} (h : cut.length < 4) :
    decode cut = .error (.badSignature cut) := by
  have htake : cut.take 4 = cut := List.take_of_length_le (Nat.le_of_lt h)
  have hs : ¬cut = signature := by
    intro heq
    rw [heq] at h
    exact absurd h (by decide)
  simp only [decode, htake, if_neg hs]

theorem decode_of_no_version {cut : List UInt8} (hs : cut.take 4 = signature)
    (h : cut.length < 8) : decode cut = .error (.truncated 4 4 cut.length) := by
  have hshort : (cut.drop 4).length < 4 := by
    rw [List.length_drop]
    omega
  have hword := eq_none_of_lt hshort exists_readWord?_iff
  simp only [decode, if_pos hs, hword]

theorem decode_of_walk {cut rest : List UInt8} {version : UInt32} {fault? : Option FormatFault}
    (hcut : cut = signature ++ wordBytes version ++ rest)
    (hwalk : walk cut.length cut.length 8 rest = ⟨[], fault?⟩) :
    decode cut = .error (fault?.getD .noMain) := by
  obtain ⟨hs, hword⟩ := signed_iff.mpr hcut
  simp only [decode, if_pos hs, hword, hwalk]
  cases fault? <;> rfl

/-- The file with a single chunk. -/
def signed (version : UInt32) (c : Chunk) : List UInt8 :=
  signature ++ wordBytes version ++ c.bytes

theorem length_signed (version : UInt32) (c : Chunk) :
    (signed version c).length = 8 + c.bytes.length := by
  rw [signed, List.length_append, List.length_append, length_wordBytes]
  rfl

theorem take_signed (version : UInt32) (c : Chunk) (n : Nat) :
    (signed version c).take (8 + n) = signature ++ wordBytes version ++ c.bytes.take n := by
  have hlen : (signature ++ wordBytes version).length = 8 := rfl
  rw [signed, ← hlen, List.take_length_add_append]

/-- What is wrong with a file of a single chunk that was cut. -/
def cutFault (id cut : List UInt8) : FormatFault :=
  if cut.length < 4 then .badSignature cut
  else if cut.length < 8 then .truncated 4 4 cut.length
  else if cut.length = 8 then .noMain
  else if cut.length < 8 + headerSize then .truncated 12 8 cut.length
  else .pastParent id 8

theorem cutFault_of_chunk (c : Chunk) {cut : List UInt8} {n : Nat} (hlen : cut.length = 8 + n) :
    cutFault c.id cut = (c.cutFault? cut.length 8 n).getD .noMain := by
  rw [cutFault, Chunk.cutFault?, hlen, if_neg (show ¬8 + n < 4 by omega),
    if_neg (show ¬8 + n < 8 by omega)]
  by_cases hempty : n = 0
  · rw [if_pos hempty, if_pos (show 8 + n = 8 by omega)]
    rfl
  rw [if_neg hempty, if_neg (show ¬8 + n = 8 by omega)]
  by_cases hheader : n < headerSize
  · rw [if_pos hheader, if_pos (show 8 + n < 8 + headerSize by omega)]
    rfl
  · rw [if_neg hheader, if_neg (show ¬8 + n < 8 + headerSize by omega)]
    rfl

/-- A file of a single chunk is refused wherever it is cut. -/
theorem decode_cut (version : UInt32) (c : Chunk) {n : Nat} (h : n < (signed version c).length) :
    decode ((signed version c).take n) = .error (cutFault c.id ((signed version c).take n)) := by
  have hlen : ((signed version c).take n).length = n := by
    rw [List.length_take]
    omega
  rw [length_signed] at h
  -- the cut is in the signature, in the version, or in the chunk
  by_cases hsignature : n < 4
  · rw [cutFault, hlen, if_pos hsignature]
    exact decode_of_short (by rwa [hlen])
  by_cases hversion : n < 8
  · have hs : ((signed version c).take n).take 4 = signature := by
      rw [List.take_take, Nat.min_eq_left (by omega)]
      rfl
    rw [cutFault, hlen, if_neg hsignature, if_pos hversion]
    have hdecode := decode_of_no_version hs (by rwa [hlen])
    rwa [hlen] at hdecode
  · obtain ⟨k, rfl⟩ : ∃ k, n = 8 + k := ⟨n - 8, by omega⟩
    have hk : k < c.bytes.length := by omega
    have hwalk := walk_take_bytes hk ((signed version c).take (8 + k)).length 8
    rw [cutFault_of_chunk c hlen]
    refine decode_of_walk (take_signed version c k) ?_
    rw [← hwalk, hlen]

namespace Model

theorem fileBytes_eq_signed (m : Model) (h : m.Fits) :
    m.fileBytes h = signed m.version (m.mainChunk h) := by
  rw [fileBytes, chunkBytes, List.flatMap_singleton, signed]

/-- A file of a model that was cut anywhere has no model but a fault of the format, also for a
reading by places, and uncut it has the model. -/
theorem decode_take_encode {m : Model} {bytes : List UInt8} (h : m.encode = .ok bytes) (n : Nat) :
    (n < bytes.length →
      decode (bytes.take n) = .error (cutFault Id.main (bytes.take n)) ∧
        Places.read (bytes.take n) = .error (.fault (cutFault Id.main (bytes.take n)))) ∧
    (bytes.length ≤ n → decode (bytes.take n) = .ok m) := by
  constructor
  · intro hn
    have hf := fits_of_encode h
    rw [encode_eq_fileBytes m hf, fileBytes_eq_signed] at h
    obtain rfl := Except.ok.inj h
    have hdecode := decode_cut m.version (m.mainChunk hf) hn
    refine ⟨hdecode, ?_⟩
    rw [Places.read_eq_outcome, hdecode]
    rfl
  · intro hn
    rw [List.take_of_length_le hn]
    exact decode_of_encode h

/-- A voxel that is written like the identifier of a chunk. -/
def misleading : Model :=
  ⟨2, 1, 1, [⟨0x53, 0x49, 0x5A, 0x45⟩, ⟨1, 0, 0, 1⟩], .ofColors [], 150⟩

/-- The cut is behind this voxel, so what is left ends with the identifier. -/
theorem decode_take_encode_misleading :
    ∃ bytes, misleading.encode = .ok bytes ∧ 64 < bytes.length ∧
      (bytes.take 64).drop 60 = Id.size ∧
      decode (bytes.take 64) = .error (.pastParent Id.main 8) ∧
      decode (bytes.take bytes.length) = .ok misleading := by
  have hf : misleading.Fits := by decide
  have hencode := misleading.encode_eq_fileBytes hf
  have hlt : 64 < (misleading.fileBytes hf).length := by
    rw [length_fileBytes]
    decide
  refine ⟨_, hencode, hlt, rfl, ?_, (decode_take_encode hencode _).2 (Nat.le_refl _)⟩
  have hcut := ((decode_take_encode hencode 64).1 hlt).1
  have hlen : ((misleading.fileBytes hf).take 64).length = 64 := by
    rw [List.length_take]
    omega
  rwa [cutFault, hlen] at hcut

end Model
end Vox
end VoxelCurve
