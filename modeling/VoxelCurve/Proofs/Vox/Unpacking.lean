import VoxelCurve.Proofs.Vox.Places

/-!
Taking packed chunks apart.

Going from chunk to chunk undoes packing.  Where a part of a file is what some chunks are packed
to, one behind the other, the walk through this part shows these chunks and ends with the part;
and where a walk ends without a fault, what it went through is what the shown chunks are packed
to.  `walk_inverts_packAll` says both, and that no other chunks are packed to the same bytes: a
chunk tells its two lengths before the bytes that they count, so where it ends does not depend
on what stands behind it (`Chunk.bytes_append_inj`).

A header is read from the whole file and may lie across the end of the part, and the sizes in it
may lead anywhere.  Neither needs a case of its own, as both put the end of the chunk behind the
end of the part.

That the walk ends is not left to the recursion of its definition.  `Places.Goes` tells it as a
relation on places of a file that stays whole, one turn after the other.
-/

namespace VoxelCurve
namespace Vox

/-! ## Chunks behind one another -/

def packAll (cs : List Chunk) : Except EncodeFault (List UInt8) := do
  let parts ← cs.mapM fun c => pack c.id c.content c.children
  .ok parts.flatten

theorem packAll_eq (cs : List Chunk) : packAll cs = .ok (chunkBytes cs) := by
  have hparts : (cs.mapM fun c => pack c.id c.content c.children) =
      .ok (cs.map Chunk.bytes) := by
    induction cs with
    | nil => rfl
    | cons c cs ih =>
      rw [List.mapM_cons, ih, c.pack_eq]
      rfl
  rw [packAll, hparts, chunkBytes, List.flatMap_def]
  rfl

theorem packAll_eq_ok_iff {cs : List Chunk} {bytes : List UInt8} :
    packAll cs = .ok bytes ↔ chunkBytes cs = bytes := by
  rw [packAll_eq, Except.ok.injEq]

namespace Chunk

/-- Where a chunk ends does not depend on what stands behind it. -/
theorem bytes_append_inj {c d : Chunk} {s t : List UInt8} (h : c.bytes ++ s = d.bytes ++ t) :
    c = d ∧ s = t := by
  have hread := d.readHeader?_bytes t
  rw [← h, c.readHeader?_bytes, Option.some.injEq, Header.mk.injEq] at hread
  obtain ⟨hid, hcontentSize, hchildrenSize, hrest⟩ := hread
  have hcontentLength : c.content.length = d.content.length := by
    rw [← c.toNat_content, hcontentSize, d.toNat_content]
  have hchildrenLength : c.children.length = d.children.length := by
    rw [← c.toNat_children, hchildrenSize, d.toNat_children]
  rw [List.append_assoc, List.append_assoc] at hrest
  obtain ⟨hcontent, hrest⟩ := List.append_inj hrest hcontentLength
  obtain ⟨hchildren, hst⟩ := List.append_inj hrest hchildrenLength
  obtain ⟨id, content, children, _, _, _⟩ := c
  obtain ⟨id', content', children', _, _, _⟩ := d
  obtain rfl : id = id' := hid
  obtain rfl : content = content' := hcontent
  obtain rfl : children = children' := hchildren
  exact ⟨rfl, hst⟩

theorem bytes_ne_nil (c : Chunk) : c.bytes ≠ [] := by
  intro h
  have hlen := c.length_bytes
  rw [h, List.length_nil, headerSize] at hlen
  omega

/-- Where the bytes behind a header suffice for its two sizes, a chunk stands. -/
theorem exists_of_readHeader? {s : List UInt8} {header : Header}
    (h : readHeader? s = some header)
    (hle : header.contentSize.toNat + header.childrenSize.toNat ≤ header.rest.length) :
    ∃ (c : Chunk) (more : List UInt8), s = c.bytes ++ more := by
  obtain ⟨id, contentSize, childrenSize, rest⟩ := header
  obtain ⟨hid, hs⟩ := readHeader?_eq_some_iff.mp h
  obtain ⟨content, rest', rfl, hcontent⟩ : ∃ content rest', rest = content ++ rest' ∧
      content.length = contentSize.toNat :=
    ⟨rest.take _, rest.drop _, (List.take_append_drop _ rest).symm,
      List.length_take_of_le (Nat.le_trans (Nat.le_add_right _ _) hle)⟩
  rw [List.length_append, hcontent, Nat.add_le_add_iff_left] at hle
  obtain ⟨children, more, rfl, hchildren⟩ : ∃ children more, rest' = children ++ more ∧
      children.length = childrenSize.toNat :=
    ⟨rest'.take _, rest'.drop _, (List.take_append_drop _ rest').symm,
      List.length_take_of_le hle⟩
  let c : Chunk :=
    ⟨id, content, children, hid, hcontent ▸ Places.toNat_le_maxWord contentSize,
      hchildren ▸ Places.toNat_le_maxWord childrenSize⟩
  refine ⟨c, more, ?_⟩
  rw [hs, bytes, hcontent, hchildren, UInt32.ofNat_toNat, UInt32.ofNat_toNat]
  simp only [List.append_assoc, c]

end Chunk

theorem chunkBytes_injective : Function.Injective chunkBytes := by
  intro cs ds h
  induction cs generalizing ds with
  | nil =>
    cases ds with
    | nil => rfl
    | cons d ds => exact absurd (List.append_eq_nil_iff.mp h.symm).1 d.bytes_ne_nil
  | cons c cs ih =>
    cases ds with
    | nil => exact absurd (List.append_eq_nil_iff.mp h).1 c.bytes_ne_nil
    | cons d ds =>
      obtain ⟨rfl, hrest⟩ := Chunk.bytes_append_inj h
      rw [ih hrest]

namespace Places

/-! ## Turn by turn -/

/-- What the next turn of the loop from chunk to chunk comes to: a chunk that starts at `offset`,
or none because the loop is done. -/
def turn (file : List UInt8) (stop offset : Nat) : Except Stop (Option Place) :=
  if offset < stop then do
    let sizes ← unpack 2 file (offset + 4)
    let contentStart := offset + headerSize
    let childrenStart := contentStart + sizes[0]
    let p : Place := ⟨slice file offset (offset + 4), contentStart, childrenStart,
      childrenStart + sizes[1]⟩
    if p.stop > stop then .error (.fault (.pastParent p.id offset)) else .ok (some p)
  else .ok none

/-- The loop from chunk to chunk comes to an end: it shows these places, and what breaks it off is
`why?`, if anything does. -/
inductive Goes (file : List UInt8) (stop : Nat) : Nat → List Place → Option Stop → Prop
  | done {offset : Nat} (h : turn file stop offset = .ok none) : Goes file stop offset [] none
  | broken {offset : Nat} {why : Stop} (h : turn file stop offset = .error why) :
      Goes file stop offset [] (some why)
  | shown {offset : Nat} {p : Place} {ps : List Place} {why? : Option Stop}
      (h : turn file stop offset = .ok (some p)) (more : Goes file stop p.stop ps why?) :
      Goes file stop offset (p :: ps) why?

section Turns

variable {file : List UInt8} {stop offset : Nat}

theorem turn_of_le (h : stop ≤ offset) : turn file stop offset = .ok none :=
  if_neg (Nat.not_lt_of_le h)

theorem turn_of_no_header (hlt : offset < stop) (h : readHeader? (file.drop offset) = none) :
    turn file stop offset = .error (.fault (.truncated (offset + 4) 8 file.length)) := by
  rw [turn, if_pos hlt, unpack_no_header h]
  rfl

theorem turn_of_header (hlt : offset < stop) {header : Header}
    (h : readHeader? (file.drop offset) = some header) {w : Window}
    (hw : w = ⟨header.id, offset + headerSize, header.contentSize.toNat,
      header.childrenSize.toNat, header.rest⟩) :
    turn file stop offset =
      if w.stop > stop then .error (.fault (.pastParent header.id offset))
      else .ok (some (place w)) := by
  obtain ⟨hid, hsizes, -⟩ := header_of_drop h
  rw [turn, if_pos hlt, hsizes, hid, hw]
  rfl

/-- The loop can go in one way only. -/
theorem Goes.unique {ps ps' : List Place} {why? why?' : Option Stop}
    (h : Goes file stop offset ps why?) (h' : Goes file stop offset ps' why?') :
    ps = ps' ∧ why? = why?' := by
  induction h generalizing ps' with
  | done h =>
    cases h' with
    | done => exact ⟨rfl, rfl⟩
    | broken h' => cases h.symm.trans h'
    | shown h' => cases h.symm.trans h'
  | broken h =>
    cases h' with
    | done h' => cases h.symm.trans h'
    | broken h' =>
      cases h.symm.trans h'
      exact ⟨rfl, rfl⟩
    | shown h' => cases h.symm.trans h'
  | shown h more ih =>
    cases h' with
    | done h' => cases h.symm.trans h'
    | broken h' => cases h.symm.trans h'
    | shown h' more' =>
      cases h.symm.trans h'
      obtain ⟨rfl, rfl⟩ := ih more'
      exact ⟨rfl, rfl⟩

/-- The walk is the loop, told by what is left of the file. -/
theorem goes_walk {bytes : List UInt8} (hb : bytes = file.drop offset) :
    Goes file stop offset ((walk file.length stop offset bytes).windows.map place)
      ((walk file.length stop offset bytes).fault?.map .fault) := by
  -- the cases of the walk are those of one turn
  fun_induction walk file.length stop offset bytes with
  | case1 offset bytes hlt hread =>
    rw [hb] at hread
    exact .broken (turn_of_no_header hlt hread)
  | case2 offset bytes hlt header hread window hpast =>
    rw [hb] at hread
    have hturn := turn_of_header hlt hread rfl
    rw [if_pos hpast] at hturn
    exact .broken hturn
  | case3 offset bytes hlt header hread window hfits more ih =>
    rw [hb] at hread
    have hturn := turn_of_header hlt hread rfl
    rw [if_neg hfits] at hturn
    exact .shown hturn (ih (drop_of_header hread rfl))
  | case4 offset bytes hlt => exact .done (turn_of_le (Nat.le_of_not_lt hlt))

end Turns

/-! ## What the turns show -/

/-- A chunk stands in a file at `offset`, and `p` is its place there. -/
structure StandsAt (file : List UInt8) (offset : Nat) (c : Chunk) (p : Place) : Prop where
  id_eq : p.id = c.id
  contentStart_eq : p.contentStart = offset + headerSize
  childrenStart_eq : p.childrenStart = p.contentStart + c.content.length
  stop_eq : p.stop = p.childrenStart + c.children.length
  bytes_eq : slice file offset p.stop = c.bytes
  content_eq : slice file p.contentStart p.childrenStart = c.content
  children_eq : slice file p.childrenStart p.stop = c.children

/-- Chunks stand in a file from `start` to `stop`, the first at `start` and each other one where
the one before it ends, and these are their places. -/
inductive Shows (file : List UInt8) (stop : Nat) : Nat → List Chunk → List Place → Prop
  | nil : Shows file stop stop [] []
  | cons {start : Nat} {c : Chunk} {cs : List Chunk} {p : Place} {ps : List Place}
      (h : StandsAt file start c p) (more : Shows file stop p.stop cs ps) :
      Shows file stop start (c :: cs) (p :: ps)

section Standing

variable {file : List UInt8} {stop offset : Nat}

theorem slice_append {a b c : Nat} (hab : a ≤ b) (hbc : b ≤ c) :
    slice file a b ++ slice file b c = slice file a c := by
  have hb : file.drop b = (file.drop a).drop (b - a) := by
    rw [List.drop_drop, Nat.add_sub_cancel' hab]
  have hc : c - a = (b - a) + (c - b) := by omega
  rw [slice, slice, slice, hb, hc, List.take_add]

theorem standsAt_of_drop {c : Chunk} {more : List UInt8} (h : file.drop offset = c.bytes ++ more) :
    StandsAt file offset c (place (c.window offset more)) := by
  have hcontent : file.drop (offset + headerSize) = c.content ++ (c.children ++ more) := by
    obtain ⟨-, -, hrest⟩ := header_of_drop (h ▸ c.readHeader?_bytes more)
    rw [← hrest, List.append_assoc]
  have hchildren : file.drop (offset + headerSize + c.content.length) = c.children ++ more := by
    rw [← List.drop_drop, hcontent, List.drop_left]
  refine ⟨rfl, rfl, rfl, rfl, ?_, slice_of_drop hcontent, slice_of_drop hchildren⟩
  show slice file offset (c.window offset more).stop = c.bytes
  rw [c.stop_window, slice_of_drop h]

/-- A turn finds the end of the part, or a fault of the format, or a chunk that ends where the part
does at the latest. -/
theorem turn_cases (hstop : stop ≤ file.length) (offset : Nat) :
    (stop ≤ offset ∧ turn file stop offset = .ok none) ∨
      (∃ fault, turn file stop offset = .error (.fault fault)) ∨
      ∃ c p, StandsAt file offset c p ∧ p.stop ≤ stop ∧ turn file stop offset = .ok (some p) := by
  by_cases hlt : offset < stop
  · cases hread : readHeader? (file.drop offset) with
    | none => exact .inr (.inl ⟨_, turn_of_no_header hlt hread⟩)
    | some header =>
      have hturn := turn_of_header hlt hread rfl
      split at hturn
      · exact .inr (.inl ⟨_, hturn⟩)
      · next hfits =>
        have hlen := length_of_readHeader? hread
        rw [List.length_drop] at hlen
        simp only [Window.stop, Window.childrenOffset, Nat.not_lt] at hfits
        obtain ⟨c, more, hbytes⟩ := Chunk.exists_of_readHeader? hread (by omega)
        rw [hbytes, c.readHeader?_bytes, Option.some.injEq] at hread
        subst hread
        rw [← c.window_eq] at hturn
        exact .inr (.inr ⟨c, _, standsAt_of_drop hbytes, c.window_eq offset more ▸ hfits, hturn⟩)
  · have hle := Nat.le_of_not_lt hlt
    exact .inl ⟨hle, turn_of_le hle⟩

/-- However the loop ends, it showed chunks that stand in the part one behind the other, and these
fill the part if nothing broke it off. -/
theorem Goes.exists_shows {ps : List Place} {why? : Option Stop}
    (h : Goes file stop offset ps why?) (hle : offset ≤ stop) (hstop : stop ≤ file.length) :
    ∃ cs last, last ≤ stop ∧ (why? = none → last = stop) ∧ Shows file last offset cs ps := by
  induction h with
  | @done offset h =>
    refine ⟨[], offset, hle, fun _ => ?_, .nil⟩
    rcases turn_cases hstop offset with ⟨hge, -⟩ | ⟨fault, h'⟩ | ⟨c, p, -, -, h'⟩
    · exact Nat.le_antisymm hle hge
    · cases h.symm.trans h'
    · cases h.symm.trans h'
  | @broken offset why h =>
    exact ⟨[], offset, hle, fun hnone => absurd hnone (Option.some_ne_none why), .nil⟩
  | @shown offset p ps why? h more ih =>
    rcases turn_cases hstop offset with ⟨-, h'⟩ | ⟨fault, h'⟩ | ⟨c, p, hc, hfits, h'⟩
    · cases h.symm.trans h'
    · cases h.symm.trans h'
    · -- the chunk ends within the part, so the rest of the loop is one through the rest of it
      cases h.symm.trans h'
      obtain ⟨cs, last, hlast, hall, hshows⟩ := ih hfits
      exact ⟨c :: cs, last, hlast, hall, .cons hc hshows⟩

theorem Shows.length_le {cs : List Chunk} {ps : List Place} (h : Shows file stop offset cs ps) :
    offset + headerSize * ps.length ≤ stop := by
  induction h with
  | nil => exact Nat.le_refl _
  | cons h more ih =>
    have hcontent := h.contentStart_eq
    have hchildren := h.childrenStart_eq
    have hstop := h.stop_eq
    rw [List.length_cons, Nat.mul_succ]
    omega

/-- Chunks that fill a part are packed to it. -/
theorem Shows.slice_eq {cs : List Chunk} {ps : List Place} (h : Shows file stop offset cs ps) :
    slice file offset stop = chunkBytes cs := by
  induction h with
  | nil =>
    rw [slice, Nat.sub_self]
    rfl
  | @cons offset c cs p ps h more ih =>
    have hcontent := h.contentStart_eq
    have hchildren := h.childrenStart_eq
    have hstop := h.stop_eq
    have hle : p.stop ≤ stop := Nat.le_trans (Nat.le_add_right _ _) more.length_le
    rw [← slice_append (show offset ≤ p.stop by omega) hle, h.bytes_eq, ih]
    rfl

end Standing

/-! ## Packing undone -/

section Part

variable {file : List UInt8} {start stop : Nat}

/-- The walk through packed chunks finds no fault, whatever stands around them in the file. -/
theorem fault?_walk_of_packAll (hle : start ≤ stop) (hstop : stop ≤ file.length) {cs : List Chunk}
    (h : packAll cs = .ok (slice file start stop)) :
    (walk file.length stop start (file.drop start)).fault? = none := by
  have hpart := packAll_eq_ok_iff.mp h
  have hfile : file.drop start = chunkBytes cs ++ file.drop stop := by
    have hdrop : file.drop stop = (file.drop start).drop (stop - start) := by
      rw [List.drop_drop, Nat.add_sub_cancel' hle]
    rw [hpart, slice, hdrop, List.take_append_drop]
  have hend : start + (chunkBytes cs).length = stop := by
    rw [hpart, slice, List.length_take, List.length_drop]
    omega
  have hwalk := walk_chunkBytes file.length cs start (file.drop stop)
  rw [hend, ← hfile] at hwalk
  rw [hwalk]

/-- No other chunks are packed to a part than those that fill it. -/
theorem Shows.packAll_eq_iff {cs : List Chunk} {ps : List Place}
    (h : Shows file stop start cs ps) {ds : List Chunk} :
    packAll ds = .ok (slice file start stop) ↔ ds = cs := by
  rw [packAll_eq_ok_iff, h.slice_eq, chunkBytes_injective.eq_iff]

end Part

/-- From `start` to `stop` of a file, the walk takes apart what packing puts together.  It ends, in
one way only, and what breaks it off, if anything does, is a fault of the format.  Nothing does
exactly where the part is what some chunks are packed to; these are then the only ones, and the
walk shows them where they stand, all of them. -/
theorem walk_inverts_packAll (file : List UInt8) {start stop : Nat} (hle : start ≤ stop)
    (hstop : stop ≤ file.length) :
    let found := walk file.length stop start (file.drop start)
    (∀ ps why?, Goes file stop start ps why? ↔
      ps = found.windows.map place ∧ why? = found.fault?.map .fault) ∧
    start + headerSize * found.windows.length ≤ stop ∧
    (found.fault? = none ↔ ∃ cs, packAll cs = .ok (slice file start stop)) ∧
    ∀ cs, packAll cs = .ok (slice file start stop) →
      Shows file stop start cs (found.windows.map place) ∧
      ∀ ds, packAll ds = .ok (slice file start stop) → ds = cs := by
  intro found
  have hgoes : Goes file stop start (found.windows.map place) (found.fault?.map .fault) :=
    goes_walk rfl
  obtain ⟨shown, last, hlast, hall, hshows⟩ := hgoes.exists_shows hle hstop
  have hlen := hshows.length_le
  rw [List.length_map] at hlen
  have hfilled : found.fault? = none → Shows file stop start shown (found.windows.map place) := by
    intro hfault
    rw [hfault] at hall
    exact hall rfl ▸ hshows
  refine ⟨?_, Nat.le_trans hlen hlast, ⟨?_, ?_⟩, ?_⟩
  · intro ps why?
    constructor
    · intro h
      exact h.unique hgoes
    · intro h
      obtain ⟨rfl, rfl⟩ := h
      exact hgoes
  · intro hfault
    exact ⟨shown, (hfilled hfault).packAll_eq_iff.mpr rfl⟩
  · intro h
    obtain ⟨cs, hcs⟩ := h
    exact fault?_walk_of_packAll hle hstop hcs
  · intro cs hcs
    have hshown := hfilled (fault?_walk_of_packAll hle hstop hcs)
    obtain rfl := hshown.packAll_eq_iff.mp hcs
    exact ⟨hshown, fun ds hds => hshown.packAll_eq_iff.mp hds⟩

/-- Two chunks, the content of the first of which spells a header. -/
def spelling : List Chunk :=
  let spelled := Id.size ++ wordBytes 12 ++ wordBytes 0
  [⟨[0x4D, 0x41, 0x54, 0x4C], spelled, [7], rfl, by decide, by decide⟩,
    Chunk.leaf [0, 0, 0, 0] [] rfl (by decide)]

/-- The same among other bytes, which begin a third header. -/
def enclosed : List UInt8 :=
  [1, 2, 3] ++ chunkBytes spelling ++ [0x4D, 0x41, 0x54]

theorem walk_inverts_packAll_enclosed :
    3 ≤ 40 ∧ 40 ≤ enclosed.length ∧ packAll spelling = .ok (slice enclosed 3 40) ∧
      let found := walk enclosed.length 40 3 (enclosed.drop 3)
      (∀ ps why?, Goes enclosed 40 3 ps why? ↔ ps = found.windows.map place ∧ why? = none) ∧
      Shows enclosed 40 3 spelling (found.windows.map place) ∧
      ∀ ds, packAll ds = .ok (slice enclosed 3 40) → ds = spelling := by
  have hle : 3 ≤ 40 := by decide
  have hstop : 40 ≤ enclosed.length := by decide
  have hpack : packAll spelling = .ok (slice enclosed 3 40) := packAll_eq_ok_iff.mpr rfl
  obtain ⟨hgoes, -, hiff, hshows⟩ := walk_inverts_packAll enclosed hle hstop
  rw [hiff.mpr ⟨spelling, hpack⟩] at hgoes
  exact ⟨hle, hstop, hpack, hgoes, hshows spelling hpack⟩

end Places
end Vox
end VoxelCurve
