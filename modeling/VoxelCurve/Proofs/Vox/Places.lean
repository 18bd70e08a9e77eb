import VoxelCurve.Proofs.Vox.Layout

/-!
Reading a file by places.

`decode` takes bytes off the front of what is left of a file.  Here the file stays whole, and
each read names the place where it starts and knows nothing of what was read before.  Such
reads can go wrong in ways that are no faults of the format: a number may be wanted where the
file has ended, the first chunk where there is none, and rows of four from bytes that do not
make them up.  `Stop` has all of these, and nothing in the types says that they do not happen.

Both ways of reading agree on every file (`read_eq_outcome`), so whatever stops a reading by
places is a fault of the format.  `decode_total` says with this what can come of a file.
-/

namespace VoxelCurve
namespace Vox
namespace Places

inductive Stop where
  | beyondEnd (offset wanted total : Nat)
  | noFirst
  /-- bytes that are not `count` rows of four -/
  | badShape (count length : Nat)
  | fault (fault : FormatFault)
deriving DecidableEq

/-! ## Reads at a place -/

/-- The bytes from `start` to `stop`, as far as there are any. -/
def slice (file : List UInt8) (start stop : Nat) : List UInt8 :=
  (file.drop start).take (stop - start)

/-- The number that bytes are, the least significant one first. -/
def number (bytes : List UInt8) : Nat :=
  bytes.foldr (fun b n => b.toNat + 0x100 * n) 0

def words (count : Nat) (file : List UInt8) (offset : Nat) : Except Stop (Vector Nat count) :=
  if offset + 4 * count ≤ file.length then
    .ok (Vector.ofFn fun i => number (slice file (offset + 4 * i) (offset + 4 * i + 4)))
  else .error (.beyondEnd offset (4 * count) file.length)

/-- Where words are missing, the file is truncated. -/
def unpack (count : Nat) (file : List UInt8) (offset : Nat) : Except Stop (Vector Nat count) :=
  match words count file offset with
  | .error (.beyondEnd offset wanted total) => .error (.fault (.truncated offset wanted total))
  | result => result

def first {α : Type} : List α → Except Stop α
  | [] => .error .noFirst
  | x :: _ => .ok x

/-- Bytes in groups of four, without what is left over. -/
def inFours : List UInt8 → List (List UInt8)
  | a :: b :: c :: d :: rest => [a, b, c, d] :: inFours rest
  | _ => []

/-- Bytes as `count` rows of four. -/
def rows (count : Nat) (bytes : List UInt8) : Except Stop (List (List UInt8)) :=
  if bytes.length = 4 * count then .ok (inFours bytes)
  else .error (.badShape count bytes.length)

/-! ## The reader -/

structure Place where
  id : List UInt8
  contentStart : Nat
  childrenStart : Nat
  stop : Nat

/-- Does something at each chunk from `offset` to `stop`, as soon as its header was read. -/
def forChunks {σ : Type} (file : List UInt8) (stop : Nat) (body : σ → Place → Except Stop σ)
    (offset : Nat) (s : σ) : Except Stop σ :=
  if _h : offset < stop then do
    let id := slice file offset (offset + 4)
    let sizes ← unpack 2 file (offset + 4)
    let contentStart := offset + headerSize
    let childrenStart := contentStart + sizes[0]
    let chunkStop := childrenStart + sizes[1]
    if chunkStop > stop then .error (.fault (.pastParent id offset))
    else
      let s ← body s ⟨id, contentStart, childrenStart, chunkStop⟩
      forChunks file stop body chunkStop s
  else .ok s
termination_by stop - offset
decreasing_by
  simp only [headerSize]
  omega

/-- A model in plain numbers and rows. -/
structure Plain where
  version : Nat
  sides : Vector Nat 3
  voxels : List (List UInt8)
  palette : List (List UInt8)

structure Found where
  sides? : Option (Vector Nat 3) := none
  voxels? : Option (List (List UInt8)) := none
  palette? : Option (List (List UInt8)) := none

def voxelsAt (file : List UInt8) (offset : Nat) : Except Stop (List (List UInt8)) := do
  let counts ← unpack 1 file offset
  let start := offset + 4
  let raw := slice file start (start + 4 * counts[0])
  if raw.length ≠ 4 * counts[0] then .error (.fault (.fewVoxels counts[0]))
  else rows counts[0] raw

def paletteAt (file : List UInt8) (offset : Nat) : Except Stop (List (List UInt8)) :=
  let raw := slice file offset (offset + 4 * 256)
  if raw.length ≠ 4 * 256 then .error (.fault .shortPalette)
  else rows 256 raw

namespace Found

def add (file : List UInt8) (f : Found) (c : Place) : Except Stop Found :=
  if c.id = Id.size then
    if f.sides?.isSome then .error (.fault .severalModels)
    else do
      let sides ← unpack 3 file c.contentStart
      .ok { f with sides? := some sides }
  else if c.id = Id.voxels then do
    let voxels ← voxelsAt file c.contentStart
    .ok { f with voxels? := some voxels }
  else if c.id = Id.palette then do
    let palette ← paletteAt file c.contentStart
    .ok { f with palette? := some palette }
  else .ok f

def plain (f : Found) (version : Nat) : Except Stop Plain :=
  match f.sides?, f.voxels? with
  | some sides, some voxels =>
    match f.palette? with
    | some palette => .ok ⟨version, sides, voxels, palette⟩
    | none => .error (.fault .noPalette)
  | _, _ => .error (.fault .noModel)

end Found

/-- The model in a file, by places. -/
def read (file : List UInt8) : Except Stop Plain :=
  if slice file 0 4 = signature then do
    let versions ← unpack 1 file 4
    let chunks ← forChunks file file.length (fun cs c => .ok (cs ++ [c])) 8 []
    if chunks.isEmpty then .error (.fault .noMain)
    else
      let main ← first chunks
      if main.id = Id.main then do
        let found ← forChunks file main.stop (Found.add file) main.childrenStart {}
        found.plain versions[0]
      else .error (.fault .noMain)
  else .error (.fault (.badSignature (slice file 0 4)))

/-! ## Reads where the bytes are known -/

theorem slice_of_drop {file xs rest : List UInt8} {start : Nat}
    (h : file.drop start = xs ++ rest) : slice file start (start + xs.length) = xs := by
  rw [slice, h, Nat.add_sub_cancel_left, List.take_left' rfl]

theorem number_wordBytes (w : UInt32) : number (wordBytes w) = w.toNat := by
  have hw := w.toNat_lt
  simp only [number, wordBytes, List.foldr_cons, List.foldr_nil, UInt8.toNat_ofNat']
  omega

theorem exists_drop_flatMap_wordBytes (ws : List UInt32) (rest : List UInt8) {i : Nat}
    (hi : i < ws.length) :
    ∃ more, (ws.flatMap wordBytes ++ rest).drop (4 * i) = wordBytes ws[i] ++ more := by
  induction ws generalizing i with
  | nil => cases hi
  | cons w ws ih =>
    rw [List.flatMap_cons, List.append_assoc]
    cases i with
    | zero => exact ⟨_, rfl⟩
    | succ i =>
      obtain ⟨more, h⟩ := ih (Nat.lt_of_succ_lt_succ hi)
      refine ⟨more, ?_⟩
      rw [Nat.mul_succ, Nat.add_comm, ← List.drop_drop, List.drop_left' (length_wordBytes w), h]
      rfl

theorem unpack_of_drop {file rest : List UInt8} {offset count : Nat} (hcount : 0 < count)
    (ws : Vector UInt32 count) (h : file.drop offset = ws.toList.flatMap wordBytes ++ rest) :
    unpack count file offset = .ok (ws.map UInt32.toNat) := by
  have hle : offset + 4 * count ≤ file.length := by
    have hlen := congrArg List.length h
    rw [List.length_drop, List.length_append, length_flatMap_quads length_wordBytes,
      ws.length_toList] at hlen
    omega
  rw [unpack, words, if_pos hle]
  refine congrArg Except.ok (Vector.ext fun i hi => ?_)
  obtain ⟨more, hmore⟩ := exists_drop_flatMap_wordBytes ws.toList rest
    (show i < ws.toList.length by rwa [ws.length_toList])
  have hplace : file.drop (offset + 4 * i) = wordBytes ws[i] ++ more := by
    rw [← List.drop_drop, h, hmore, Vector.getElem_toList]
  rw [Vector.getElem_ofFn, Vector.getElem_map, ← number_wordBytes]
  exact congrArg number (slice_of_drop hplace)

theorem unpack_of_short {file : List UInt8} {offset count : Nat}
    (h : file.length < offset + 4 * count) :
    unpack count file offset = .error (.fault (.truncated offset (4 * count) file.length)) := by
  rw [unpack, words, if_neg (Nat.not_le_of_lt h)]

theorem inFours_flatMap {α : Type} {bytes : α → List UInt8}
    (hbytes : ∀ x, ∃ a b c d, bytes x = [a, b, c, d]) (xs : List α) :
    inFours (xs.flatMap bytes) = xs.map bytes := by
  induction xs with
  | nil => rfl
  | cons x xs ih =>
    obtain ⟨a, b, c, d, hx⟩ := hbytes x
    rw [List.flatMap_cons, List.map_cons, hx, ← ih]
    rfl

/-- Rows stand in a file where what they are written as does. -/
theorem rows_of_drop {α : Type} {bytes : α → List UInt8}
    (hbytes : ∀ x, ∃ a b c d, bytes x = [a, b, c, d]) {file rest : List UInt8} {start : Nat}
    {xs : List α} (h : file.drop start = xs.flatMap bytes ++ rest) :
    (slice file start (start + 4 * xs.length)).length = 4 * xs.length ∧
      rows xs.length (slice file start (start + 4 * xs.length)) = .ok (xs.map bytes) := by
  have hlen : (xs.flatMap bytes).length = 4 * xs.length := by
    refine length_flatMap_quads (fun x => ?_) xs
    obtain ⟨a, b, c, d, hx⟩ := hbytes x
    rw [hx]
    rfl
  rw [← hlen, slice_of_drop h]
  refine ⟨rfl, ?_⟩
  rw [rows, if_pos hlen, inFours_flatMap hbytes]

theorem length_slice (file : List UInt8) (start wanted : Nat) :
    (slice file start (start + wanted)).length = min wanted (file.length - start) := by
  rw [slice, List.length_take, List.length_drop, Nat.add_sub_cancel_left]

/-! ## What both readers see -/

/-- The same result, or the same fault, where the other reader shows it. -/
def outcome {α β : Type} (view : α → β) : Except FormatFault α → Except Stop β
  | .error fault => .error (.fault fault)
  | .ok a => .ok (view a)

theorem foldlM_outcome {α β γ : Type} {view : α → β} {f : α → γ → Except FormatFault α}
    {g : β → γ → Except Stop β} {xs : List γ}
    (h : ∀ x ∈ xs, ∀ a, g (view a) x = outcome view (f a x)) (a : α) :
    xs.foldlM g (view a) = outcome view (xs.foldlM f a) := by
  induction xs generalizing a with
  | nil => rfl
  | cons x xs ih =>
    rw [List.forall_mem_cons] at h
    rw [List.foldlM_cons, List.foldlM_cons, h.1]
    cases f a x with
    | error fault => rfl
    | ok a' => exact ih h.2 a'

/-! ## From chunk to chunk -/

/-- What ends a walk, behind what was done at its chunks. -/
def closing {σ : Type} (fault? : Option FormatFault) (s : σ) : Except Stop σ :=
  match fault? with
  | some fault => .error (.fault fault)
  | none => .ok s

def place (w : Window) : Place :=
  ⟨w.id, w.offset, w.childrenOffset, w.stop⟩

theorem unpack_no_header {file : List UInt8} {offset : Nat}
    (h : readHeader? (file.drop offset) = none) :
    unpack 2 file (offset + 4) = .error (.fault (.truncated (offset + 4) 8 file.length)) := by
  have hshort := lt_of_eq_none h exists_readHeader?_iff
  rw [List.length_drop] at hshort
  exact unpack_of_short (by omega)

theorem header_of_drop {file : List UInt8} {offset : Nat} {header : Header}
    (h : readHeader? (file.drop offset) = some header) :
    slice file offset (offset + 4) = header.id ∧
      unpack 2 file (offset + 4) =
        .ok #v[header.contentSize.toNat, header.childrenSize.toNat] ∧
      header.rest = file.drop (offset + headerSize) := by
  obtain ⟨hid, hs⟩ := readHeader?_eq_some_iff.mp h
  have hwords : file.drop (offset + 4) =
      #v[header.contentSize, header.childrenSize].toList.flatMap wordBytes ++ header.rest := by
    rw [← List.drop_drop, hs]
    simp only [List.append_assoc]
    rw [List.drop_left' hid]
    rfl
  have hsizes := unpack_of_drop (by decide) _ hwords
  simp only [Vector.map_mk, List.map_toArray, List.map_cons, List.map_nil] at hsizes
  refine ⟨?_, hsizes, ?_⟩
  · simp only [List.append_assoc] at hs
    rw [← slice_of_drop hs, hid]
  · rw [← List.drop_drop, hs, List.drop_left']
    simp only [List.length_append, length_wordBytes, hid, headerSize]

/-- Behind a chunk the file goes on where the chunk stops. -/
theorem drop_of_header {file : List UInt8} {offset : Nat} {header : Header}
    (h : readHeader? (file.drop offset) = some header) {w : Window}
    (hw : w = ⟨header.id, offset + headerSize, header.contentSize.toNat,
      header.childrenSize.toNat, header.rest⟩) :
    header.rest.drop (header.contentSize.toNat + header.childrenSize.toNat) =
      file.drop w.stop := by
  obtain ⟨-, -, hrest⟩ := header_of_drop h
  rw [hrest, List.drop_drop, ← Nat.add_assoc, hw]
  rfl

theorem forChunks_header {σ : Type} (body : σ → Place → Except Stop σ) {file : List UInt8}
    {stop offset : Nat} (hlt : offset < stop) {header : Header}
    (h : readHeader? (file.drop offset) = some header) {w : Window}
    (hw : w = ⟨header.id, offset + headerSize, header.contentSize.toNat,
      header.childrenSize.toNat, header.rest⟩) (s : σ) :
    forChunks file stop body offset s =
      if w.stop > stop then .error (.fault (.pastParent header.id offset))
      else body s (place w) >>= forChunks file stop body w.stop := by
  obtain ⟨hid, hsizes, -⟩ := header_of_drop h
  rw [forChunks, dif_pos hlt, hsizes, hid, hw]
  rfl

/-- Going from chunk to chunk is the walk, with something done at each of its windows. -/
theorem forChunks_eq {σ : Type} (body : σ → Place → Except Stop σ) {file bytes : List UInt8}
    {stop offset : Nat} (hb : bytes = file.drop offset) (s : σ) :
    forChunks file stop body offset s =
      (walk file.length stop offset bytes).windows.foldlM (fun s w => body s (place w)) s >>=
        closing (walk file.length stop offset bytes).fault? := by
  -- the cases of the walk are those of one step, which finds the same header at `offset`
  fun_induction walk file.length stop offset bytes generalizing s with
  | case1 offset bytes hlt hread =>
    rw [hb] at hread
    rw [forChunks, dif_pos hlt, unpack_no_header hread]
    rfl
  | case2 offset bytes hlt header hread window hpast =>
    rw [hb] at hread
    rw [forChunks_header body hlt hread rfl, if_pos hpast]
    rfl
  | case3 offset bytes hlt header hread window hfits more ih =>
    rw [hb] at hread
    rw [forChunks_header body hlt hread rfl, if_neg hfits, List.foldlM_cons, bind_assoc]
    exact bind_congr fun s => ih (drop_of_header hread rfl) s
  | case4 offset bytes hlt =>
    rw [forChunks, dif_neg hlt]
    rfl

/-! ## The fields of a model -/

theorem unpack_sides {file : List UInt8} {offset : Nat} {sides : UInt32 × UInt32 × UInt32}
    (h : readSides? (file.drop offset) = some sides) :
    unpack 3 file offset = .ok #v[sides.1.toNat, sides.2.1.toNat, sides.2.2.toNat] := by
  obtain ⟨rest, hs⟩ := readSides?_eq_some_iff.mp h
  have hsides := unpack_of_drop (by decide) #v[sides.1, sides.2.1, sides.2.2]
    (show file.drop offset = _ ++ rest by rw [hs]; rfl)
  simpa only [Vector.map_mk, List.map_toArray, List.map_cons, List.map_nil] using hsides

theorem unpack_no_sides {file : List UInt8} {offset : Nat}
    (h : readSides? (file.drop offset) = none) :
    unpack 3 file offset = .error (.fault (.truncated offset 12 file.length)) := by
  have hshort := lt_of_eq_none h exists_readSides?_iff
  rw [List.length_drop] at hshort
  exact unpack_of_short (by omega)

theorem unpack_word {file rest : List UInt8} {offset : Nat} {w : UInt32}
    (h : readWord? (file.drop offset) = some (w, rest)) :
    unpack 1 file offset = .ok #v[w.toNat] ∧ rest = file.drop (offset + 4) := by
  have hs := readWord?_eq_some_iff.mp h
  have hword := unpack_of_drop (by decide) #v[w]
    (show file.drop offset = _ ++ rest by rw [hs]; rfl)
  refine ⟨?_, ?_⟩
  · simpa only [Vector.map_mk, List.map_toArray, List.map_cons, List.map_nil] using hword
  · rw [← List.drop_drop, hs, List.drop_left' (length_wordBytes w)]

theorem unpack_no_word {file : List UInt8} {offset : Nat}
    (h : readWord? (file.drop offset) = none) :
    unpack 1 file offset = .error (.fault (.truncated offset 4 file.length)) := by
  have hshort := lt_of_eq_none h exists_readWord?_iff
  rw [List.length_drop] at hshort
  exact unpack_of_short (by omega)

theorem exists_entry_bytes (e : Entry) : ∃ a b c d, e.bytes = [a, b, c, d] :=
  ⟨e.x, e.y, e.z, e.slot, rfl⟩

theorem exists_color_toList (color : Rgba) : ∃ a b c d, color.toList = [a, b, c, d] := by
  obtain ⟨r, g, b, a, rfl⟩ := exists_eq_ofBytes color
  exact ⟨r, g, b, a, rfl⟩

theorem voxelsAt_eq {file : List UInt8} {w : Window} (hw : w.bytes = file.drop w.offset) :
    voxelsAt file w.offset = outcome (List.map Entry.bytes) (readVoxels file.length w) := by
  cases hcount : readWord? (file.drop w.offset) with
  | none =>
    rw [voxelsAt, unpack_no_word hcount, readVoxels, hw, hcount]
    rfl
  | some r =>
    obtain ⟨count, rest⟩ := r
    obtain ⟨hunpack, hrest⟩ := unpack_word hcount
    rw [voxelsAt, hunpack]
    show (if (slice file (w.offset + 4) (w.offset + 4 + 4 * count.toNat)).length ≠
        4 * count.toNat then Except.error (Stop.fault (.fewVoxels count.toNat))
      else rows count.toNat (slice file (w.offset + 4) (w.offset + 4 + 4 * count.toNat))) = _
    cases hq : readQuads? Entry.mk count.toNat rest [] with
    | none =>
      have hshort := lt_of_eq_none hq exists_readQuads?_iff
      rw [hrest, List.length_drop] at hshort
      have hfew : readVoxels file.length w = .error (.fewVoxels count.toNat) := by
        simp only [readVoxels, hw, hcount, hq]
      rw [hfew]
      exact if_pos (by rw [length_slice]; omega)
    | some voxels =>
      obtain ⟨hlen, more, hmore⟩ :=
        (readQuads?_eq_some_iff Entry.bytes_mk Entry.exists_eq_mk).mp hq
      obtain ⟨hfull, hrows⟩ := rows_of_drop exists_entry_bytes (hrest ▸ hmore)
      have hvoxels : readVoxels file.length w = .ok voxels := by
        simp only [readVoxels, hw, hcount, hq]
      rw [hlen] at hfull hrows
      rw [if_neg (not_not_intro hfull), hrows, hvoxels]
      rfl

theorem paletteAt_of_none {file : List UInt8} {offset : Nat}
    (h : readPalette? (file.drop offset) = none) :
    paletteAt file offset = .error (.fault .shortPalette) := by
  have hshort := lt_of_eq_none h exists_readPalette?_iff
  rw [List.length_drop] at hshort
  exact if_pos (by rw [length_slice]; omega)

theorem paletteAt_of_some {file : List UInt8} {offset : Nat} {palette : Palette}
    (h : readPalette? (file.drop offset) = some palette) :
    paletteAt file offset = .ok (palette.toList.map Vector.toList) := by
  obtain ⟨rest, hrest⟩ := readPalette?_eq_some_iff.mp h
  obtain ⟨hfull, hrows⟩ := rows_of_drop exists_color_toList hrest
  rw [palette.length_toList] at hfull hrows
  rw [paletteAt, if_neg (not_not_intro hfull), hrows]

/-! ## The children of the main chunk -/

def foundOf (p : Parts) : Found where
  sides? := p.sides?.map fun sides => #v[sides.1.toNat, sides.2.1.toNat, sides.2.2.toNat]
  voxels? := p.voxels?.map (List.map Entry.bytes)
  palette? := p.palette?.map fun palette => palette.toList.map Vector.toList

/-- Both readers take the same from a child. -/
theorem add_eq_outcome {file : List UInt8} {w : Window} (hw : w.bytes = file.drop w.offset)
    (p : Parts) : (foundOf p).add file (place w) = outcome foundOf (p.add file.length w) := by
  by_cases hs : w.id = Id.size
  · have hsome : (foundOf p).sides?.isSome = p.sides?.isSome := Option.isSome_map
    rw [Found.add, if_pos (show (place w).id = _ from hs), Parts.add, if_pos hs, hsome, hw]
    by_cases hp : p.sides?.isSome
    · rw [if_pos hp, if_pos hp]
      rfl
    rw [if_neg hp, if_neg hp]
    show (unpack 3 file w.offset >>= _) = _
    cases hr : readSides? (file.drop w.offset) with
    | some sides =>
      rw [unpack_sides hr]
      rfl
    | none =>
      rw [unpack_no_sides hr]
      rfl
  by_cases hv : w.id = Id.voxels
  · rw [Found.add, if_neg (show (place w).id ≠ _ from hs), if_pos (show (place w).id = _ from hv),
      Parts.add, if_neg hs, if_pos hv]
    show (voxelsAt file w.offset >>= _) = _
    rw [voxelsAt_eq hw]
    cases readVoxels file.length w with
    | error fault => rfl
    | ok voxels => rfl
  by_cases hp : w.id = Id.palette
  · rw [Found.add, if_neg (show (place w).id ≠ _ from hs), if_neg (show (place w).id ≠ _ from hv),
      if_pos (show (place w).id = _ from hp), Parts.add, if_neg hs, if_neg hv, if_pos hp, hw]
    show (paletteAt file w.offset >>= _) = _
    cases hr : readPalette? (file.drop w.offset) with
    | none =>
      rw [paletteAt_of_none hr]
      rfl
    | some palette =>
      rw [paletteAt_of_some hr]
      rfl
  · rw [Found.add, if_neg (show (place w).id ≠ _ from hs), if_neg (show (place w).id ≠ _ from hv),
      if_neg (show (place w).id ≠ _ from hp), Parts.add, if_neg hs, if_neg hv, if_neg hp]
    rfl

theorem addAll_eq_outcome {file bytes : List UInt8} {stop offset : Nat}
    (hb : bytes = file.drop offset) :
    forChunks file stop (Found.add file) offset {} =
      outcome foundOf (({} : Parts).addAll file.length (walk file.length stop offset bytes)) := by
  have hfold : (walk file.length stop offset bytes).windows.foldlM
      (fun f w => Found.add file f (place w)) (foundOf {}) =
        outcome foundOf
          ((walk file.length stop offset bytes).windows.foldlM (Parts.add file.length) {}) :=
    foldlM_outcome (fun w hw p => add_eq_outcome (bytes_eq_drop_of_mem_walk hb hw) p) {}
  rw [forChunks_eq _ hb, Parts.addAll]
  show List.foldlM _ (foundOf {}) _ >>= _ = _
  rw [hfold]
  cases (walk file.length stop offset bytes).windows.foldlM (Parts.add file.length) {} with
  | error fault => rfl
  | ok p => cases (walk file.length stop offset bytes).fault? with
    | none => rfl
    | some fault => rfl

/-! ## The whole file -/

def plainOf (m : Model) : Plain where
  version := m.version.toNat
  sides := #v[m.width.toNat, m.depth.toNat, m.height.toNat]
  voxels := m.voxels.map Entry.bytes
  palette := m.palette.toList.map Vector.toList

theorem plain_eq_outcome (p : Parts) (version : UInt32) :
    (foundOf p).plain version.toNat = outcome plainOf (p.model version) := by
  obtain ⟨sides?, voxels?, palette?⟩ := p
  cases sides? <;> cases voxels? <;> cases palette? <;> rfl

theorem foldlM_place (windows : List Window) (cs : List Place) :
    windows.foldlM (fun cs w => (.ok (cs ++ [place w]) : Except Stop (List Place))) cs =
      .ok (cs ++ windows.map place) := by
  induction windows generalizing cs with
  | nil =>
    rw [List.map_nil, List.append_nil]
    rfl
  | cons w windows ih =>
    rw [List.map_cons, List.append_cons]
    exact ih _

/-- The chunks of the file, all of them, before the first one is looked at. -/
theorem collect_eq {file bytes : List UInt8} {stop offset : Nat} (hb : bytes = file.drop offset) :
    forChunks file stop (fun cs c => .ok (cs ++ [c])) offset [] =
      closing (walk file.length stop offset bytes).fault?
        ((walk file.length stop offset bytes).windows.map place) := by
  rw [forChunks_eq _ hb, foldlM_place]
  rfl

theorem main_eq_outcome {file : List UInt8} {main : Window}
    (hmain : main.bytes = file.drop main.offset) (version : UInt32) :
    (do
      let found ← forChunks file main.stop (Found.add file) main.childrenOffset {}
      found.plain version.toNat) =
      outcome plainOf (decodeMain version file.length main) := by
  have hchildren : main.bytes.drop main.contentSize = file.drop main.childrenOffset := by
    rw [hmain, List.drop_drop]
    rfl
  rw [addAll_eq_outcome hchildren, decodeMain]
  cases ({} : Parts).addAll file.length (walk file.length main.stop main.childrenOffset
      (main.bytes.drop main.contentSize)) with
  | error fault => rfl
  | ok p => exact plain_eq_outcome p version

/-- Reading by places gives what decoding gives, and stops only for faults of the format. -/
theorem read_eq_outcome (file : List UInt8) : read file = outcome plainOf (decode file) := by
  have htake : slice file 0 4 = file.take 4 := rfl
  -- signature, version, all chunks of the file, the first of them: both look in this order
  by_cases hs : file.take 4 = signature
  · cases hv : readWord? (file.drop 4) with
    | none =>
      simp only [read, decode, htake, if_pos hs, hv, unpack_no_word hv]
      rfl
    | some r =>
      obtain ⟨version, rest⟩ := r
      obtain ⟨hunpack, hrest⟩ := unpack_word hv
      have hcollect : forChunks file file.length (fun cs c => .ok (cs ++ [c])) 8 [] = _ :=
        collect_eq hrest
      have hbytes : ∀ w ∈ (walk file.length file.length 8 rest).windows,
          w.bytes = file.drop w.offset := fun w hw => bytes_eq_drop_of_mem_walk hrest hw
      rcases hwalk : walk file.length file.length 8 rest with ⟨windows, fault?⟩
      rw [hwalk] at hcollect hbytes
      simp only [read, decode, htake, if_pos hs, hv, hunpack, hwalk, hcollect]
      cases fault? with
      | some fault => rfl
      | none =>
        cases windows with
        | nil => rfl
        | cons main more =>
          show (if main.id = Id.main then _ else _) = outcome plainOf (if _ then _ else _)
          by_cases hid : main.id = Id.main
          · rw [if_pos hid, if_pos hid]
            exact main_eq_outcome (hbytes main List.mem_cons_self) version
          · rw [if_neg hid, if_neg hid]
            rfl
  · simp only [read, decode, htake, if_neg hs]
    rfl

namespace Plain

/-- The numbers are words, and the voxels and the palette are rows of four. -/
structure Sound (p : Plain) : Prop where
  version_le : p.version ≤ maxWord
  sides_le : ∀ side ∈ p.sides, side ≤ maxWord
  voxel_length : ∀ row ∈ p.voxels, row.length = 4
  palette_length : p.palette.length = 256
  color_length : ∀ row ∈ p.palette, row.length = 4

end Plain

theorem toNat_le_maxWord (w : UInt32) : w.toNat ≤ maxWord :=
  Nat.le_of_lt_succ w.toNat_lt

theorem sound_plainOf (m : Model) : (plainOf m).Sound where
  version_le := toNat_le_maxWord m.version
  sides_le := by
    intro side hside
    simp only [plainOf, Vector.mem_mk, List.mem_toArray, List.mem_cons, List.not_mem_nil,
      or_false] at hside
    rcases hside with rfl | rfl | rfl <;> exact toNat_le_maxWord _
  voxel_length := by
    intro row hrow
    obtain ⟨e, -, rfl⟩ := List.mem_map.mp hrow
    rfl
  palette_length := by
    show (m.palette.toList.map Vector.toList).length = 256
    rw [List.length_map, m.palette.length_toList]
  color_length := by
    intro row hrow
    obtain ⟨color, -, rfl⟩ := List.mem_map.mp hrow
    exact color.length_toList

/-- Every file has either a model, whose numbers are words, whose voxels and palette are rows of
four and whose palette has 256 of these, or a fault of the format; and a reading by places, whose
reads could go wrong in other ways, ends with the same. -/
theorem decode_total (bytes : List UInt8) :
    (∃ fault, decode bytes = .error fault ∧ read bytes = .error (.fault fault)) ∨
      ∃ m, decode bytes = .ok m ∧ read bytes = .ok (plainOf m) ∧ (plainOf m).Sound := by
  rw [read_eq_outcome]
  cases decode bytes with
  | error fault => exact .inl ⟨fault, rfl, rfl⟩
  | ok m => exact .inr ⟨m, rfl, rfl, sound_plainOf m⟩

end Places
end Vox
end VoxelCurve
