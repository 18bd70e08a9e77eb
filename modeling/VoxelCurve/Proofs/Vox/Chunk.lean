import VoxelCurve.Proofs.Vox.Reading

/-!
Packed chunks and the walk through them.

A `Chunk` is what can be packed: an identifier of four bytes, and content and children that
a word can count.  `walk_chunkBytes` is the statement that the reader needs: the walk
through chunks that lie behind one another shows a window for each of them, in order, and
it finds nothing in them, whatever their contents look like, because it only ever stands
at the start of a header.
-/

namespace VoxelCurve
namespace Vox

theorem readHeader?_eq_some_iff {s : List UInt8} {h : Header} :
    readHeader? s = some h ↔
      h.id.length = 4 ∧
        s = h.id ++ wordBytes h.contentSize ++ wordBytes h.childrenSize ++ h.rest := by
  obtain ⟨id, contentSize, childrenSize, rest⟩ := h
  constructor
  · intro hs
    unfold readHeader? at hs
    split at hs
    · simp only [Option.bind_eq_bind, Option.bind_eq_some_iff, Prod.exists,
        readWord?_eq_some_iff, Option.some.injEq, Header.mk.injEq] at hs
      obtain ⟨_, _, rfl, _, _, rfl, rfl, rfl, rfl, rfl⟩ := hs
      exact ⟨rfl, by simp only [List.append_assoc, List.cons_append, List.nil_append]⟩
    · cases hs
  · intro h
    obtain ⟨hid, rfl⟩ := h
    match id, hid with
    | [a, b, c, d], _ =>
      simp only [List.append_assoc, List.cons_append, List.nil_append, readHeader?,
        readWord?_wordBytes, Option.bind_eq_bind, Option.bind_some]

theorem exists_readHeader?_iff {s : List UInt8} :
    (∃ header, readHeader? s = some header) ↔ 12 ≤ s.length := by
  constructor
  · intro h
    obtain ⟨header, h⟩ := h
    have := length_of_readHeader? h
    simp only [headerSize] at this
    omega
  · intro h
    obtain ⟨⟨id, contentSize, childrenSize⟩, hsides⟩ := exists_readSides?_iff.mpr h
    obtain ⟨rest, hs⟩ := readSides?_eq_some_iff.mp hsides
    exact ⟨⟨wordBytes id, contentSize, childrenSize, rest⟩,
      readHeader?_eq_some_iff.mpr ⟨length_wordBytes id, hs⟩⟩

/-- Something that can be packed. -/
structure Chunk where
  id : List UInt8
  content : List UInt8
  children : List UInt8
  id_length : id.length = 4
  content_le : content.length ≤ maxWord
  children_le : children.length ≤ maxWord

namespace Chunk

def bytes (c : Chunk) : List UInt8 :=
  c.id ++ wordBytes (UInt32.ofNat c.content.length) ++
    wordBytes (UInt32.ofNat c.children.length) ++ c.content ++ c.children

theorem length_bytes (c : Chunk) :
    c.bytes.length = headerSize + c.content.length + c.children.length := by
  simp only [bytes, List.length_append, length_wordBytes, c.id_length, headerSize]

theorem pack_eq (c : Chunk) : pack c.id c.content c.children = .ok c.bytes := by
  have hid := c.id_length
  have hsizes : ¬(c.content.length > maxWord ∨ c.children.length > maxWord) := by
    have := c.content_le
    have := c.children_le
    omega
  rw [pack, if_neg (not_not_intro hid), if_neg hsizes]
  rfl

theorem length_of_pack {id content children bytes : List UInt8}
    (h : pack id content children = .ok bytes) :
    bytes.length = headerSize + content.length + children.length := by
  unfold pack at h
  split at h
  · cases h
  · next hid =>
    split at h
    · cases h
    · cases h
      simp only [List.length_append, length_wordBytes, Decidable.not_not.mp hid, headerSize]

/-- A chunk without children. -/
def leaf (id content : List UInt8) (hid : id.length = 4) (hc : content.length ≤ maxWord) :
    Chunk :=
  ⟨id, content, [], hid, hc, Nat.zero_le _⟩

/-- The chunk where it starts at `offset` and has `rest` behind it. -/
def window (c : Chunk) (offset : Nat) (rest : List UInt8) : Window :=
  ⟨c.id, offset + headerSize, c.content.length, c.children.length,
    c.content ++ c.children ++ rest⟩

theorem stop_window (c : Chunk) (offset : Nat) (rest : List UInt8) :
    (c.window offset rest).stop = offset + c.bytes.length := by
  simp only [length_bytes, Window.stop, Window.childrenOffset, window]
  omega

theorem toNat_content (c : Chunk) :
    (UInt32.ofNat c.content.length).toNat = c.content.length :=
  toNat_ofNat_of_le_maxWord c.content_le

theorem toNat_children (c : Chunk) :
    (UInt32.ofNat c.children.length).toNat = c.children.length :=
  toNat_ofNat_of_le_maxWord c.children_le

/-- The window that the walk shows has the sizes of the chunk. -/
theorem window_eq (c : Chunk) (offset : Nat) (rest : List UInt8) :
    c.window offset rest =
      ⟨c.id, offset + headerSize, (UInt32.ofNat c.content.length).toNat,
        (UInt32.ofNat c.children.length).toNat, c.content ++ c.children ++ rest⟩ := by
  rw [toNat_content, toNat_children, window]

theorem readHeader?_bytes (c : Chunk) (rest : List UInt8) :
    readHeader? (c.bytes ++ rest) =
      some ⟨c.id, UInt32.ofNat c.content.length, UInt32.ofNat c.children.length,
        c.content ++ c.children ++ rest⟩ := by
  rw [readHeader?_eq_some_iff]
  exact ⟨c.id_length, by simp only [bytes, List.append_assoc]⟩

end Chunk

/-! ## The walk -/

section Step

variable {total stop offset : Nat} {bytes : List UInt8}

theorem walk_of_le (h : stop ≤ offset) : walk total stop offset bytes = ⟨[], none⟩ := by
  rw [walk, if_neg (Nat.not_lt_of_le h)]

theorem walk_of_no_header (hlt : offset < stop) (h : readHeader? bytes = none) :
    walk total stop offset bytes = ⟨[], some (.truncated (offset + 4) 8 total)⟩ := by
  rw [walk, if_pos hlt]
  split
  · rfl
  · next header hread =>
    rw [h] at hread
    cases hread

/-- Behind a header the walk either ends, or shows a chunk and goes on behind it. -/
theorem walk_of_header {header : Header} (hlt : offset < stop)
    (h : readHeader? bytes = some header) {w : Window}
    (hw : w = ⟨header.id, offset + headerSize, header.contentSize.toNat,
      header.childrenSize.toNat, header.rest⟩) :
    walk total stop offset bytes =
      if w.stop > stop then ⟨[], some (.pastParent header.id offset)⟩
      else
        let more := walk total stop w.stop
          (header.rest.drop (header.contentSize.toNat + header.childrenSize.toNat))
        ⟨w :: more.windows, more.fault?⟩ := by
  rw [walk, if_pos hlt]
  split
  · next hread =>
    rw [h] at hread
    cases hread
  · next header' hread =>
    obtain rfl := Option.some.inj (h.symm.trans hread)
    rw [hw]

end Step

/-- Chunks behind one another. -/
def chunkBytes (cs : List Chunk) : List UInt8 :=
  cs.flatMap Chunk.bytes

/-- The windows of chunks that start at `offset` and have `rest` behind them. -/
def windowsOf : List Chunk → Nat → List UInt8 → List Window
  | [], _, _ => []
  | c :: cs, offset, rest =>
    c.window offset (chunkBytes cs ++ rest) :: windowsOf cs (offset + c.bytes.length) rest

/-- A walk through packed chunks shows each of them and ends without a fault. -/
theorem walk_chunkBytes (total : Nat) (cs : List Chunk) (offset : Nat) (rest : List UInt8) :
    walk total (offset + (chunkBytes cs).length) offset (chunkBytes cs ++ rest) =
      ⟨windowsOf cs offset rest, none⟩ := by
  induction cs generalizing offset with
  | nil => exact walk_of_le (Nat.le_refl _)
  | cons c cs ih =>
    have hlen := c.length_bytes
    have hstop := c.stop_window offset (chunkBytes cs ++ rest)
    have hall : (chunkBytes (c :: cs)).length = c.bytes.length + (chunkBytes cs).length :=
      List.length_append
    have hbytes : chunkBytes (c :: cs) ++ rest = c.bytes ++ (chunkBytes cs ++ rest) :=
      List.append_assoc _ _ _
    have hread := c.readHeader?_bytes (chunkBytes cs ++ rest)
    have hdrop : (c.content ++ c.children ++ (chunkBytes cs ++ rest)).drop
        (c.content.length + c.children.length) = chunkBytes cs ++ rest :=
      List.drop_left' (by rw [List.length_append])
    have hlt : offset < offset + (chunkBytes (c :: cs)).length := by
      rw [hall, hlen, headerSize]
      omega
    have hmore := ih (offset + c.bytes.length)
    rw [Nat.add_assoc, ← hall] at hmore
    rw [hbytes, walk_of_header hlt hread (c.window_eq offset (chunkBytes cs ++ rest)), hstop,
      if_neg (by rw [hall]; omega)]
    simp only [c.toNat_content, c.toNat_children, hdrop, hmore]
    rfl

/-! ## Where windows lie -/

/-- A window shows the file from its offset on. -/
theorem bytes_eq_drop_of_mem_walk {file bytes : List UInt8} {total stop offset : Nat}
    {w : Window} (hb : bytes = file.drop offset)
    (hw : w ∈ (walk total stop offset bytes).windows) : w.bytes = file.drop w.offset := by
  fun_induction walk total stop offset bytes with
  | case1 => cases hw
  | case2 => cases hw
  | case3 offset bytes hlt header hread window hfits more ih =>
    have hrest : header.rest = file.drop (offset + headerSize) := by
      obtain ⟨hid, hs⟩ := readHeader?_eq_some_iff.mp hread
      rw [← List.drop_drop, ← hb, hs, List.drop_left']
      simp only [List.length_append, length_wordBytes, hid, headerSize]
    obtain rfl | hw := List.mem_cons.mp hw
    · exact hrest
    · have hstop : window.stop = offset + headerSize +
          (header.contentSize.toNat + header.childrenSize.toNat) := Nat.add_assoc _ _ _
      refine ih ?_ hw
      rw [hrest, List.drop_drop, hstop]
  | case4 => cases hw

end Vox
end VoxelCurve
