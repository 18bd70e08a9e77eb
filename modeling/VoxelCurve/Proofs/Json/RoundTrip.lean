import VoxelCurve.Proofs.Json.Scalar
import VoxelCurve.Proofs.Json.Text
import VoxelCurve.Proofs.Success
import VoxelCurve.Proofs.Text.Utf8

/-!
Reading what was written.

A document is read back as the value that it was written for, if its names are apart, its lists
and objects are not nested deeper than the reader goes, and each of its numbers is read back from
its own text (`Legible`).  What the printer puts between the parts, the reader skips; what stands
behind a part never belongs to it.  The proof follows the value: the parts are read one after the
other, each with the steps that its own length leaves it.
-/

namespace VoxelCurve
namespace Json

open Text (Piece)

/-- The text of a value on a line at the given depth. -/
def chars (d : Nat) (v : Value) : List Char :=
  (pieces d v).flatMap Piece.chars

def itemChars (d : Nat) (items : List Value) : List Char :=
  (itemPieces d items).flatMap Piece.chars

def fieldChars (d : Nat) (fields : Fields) : List Char :=
  (fieldPieces d fields).flatMap Piece.chars

/-- Whether a number is read back from its own text. -/
def ReadsBack (v : Value) : Prop :=
  readScalar (chars 0 v) = .ok (v, [])

/-- Whether a value with at most so many lists and objects in one another can be read back. -/
inductive Legible : Nat → Value → Prop
  | null {depth : Nat} : Legible depth .null
  | bool {depth : Nat} {b : Bool} : Legible depth (.bool b)
  | int {depth : Nat} {n : Int} (back : ReadsBack (.int n)) : Legible depth (.int n)
  | float {depth : Nat} {x : Float} (back : ReadsBack (.float x)) : Legible depth (.float x)
  | text {depth : Nat} {s : String} : Legible depth (.text s)
  | list {depth : Nat} {items : List Value} (each : ∀ v ∈ items, Legible depth v) :
    Legible (depth + 1) (.list items)
  | object {depth : Nat} {fields : Fields} (apart : fields.names.Nodup)
    (each : ∀ f ∈ fields, Legible depth f.2) : Legible (depth + 1) (.object fields)

/-! ## Texts of values -/

theorem flatMap_putBefore (start : Piece) (v : Value) (ps : List Piece) :
    (putBefore start v ps).flatMap Piece.chars = start.chars ++ ps.flatMap Piece.chars := by
  unfold putBefore
  split
  · rfl
  · rfl
  · exact List.append_assoc _ _ _
  · rfl

theorem chars_list_cons (d : Nat) (v : Value) (items : List Value) :
    chars d (.list (v :: items)) =
      '[' :: newline (d + 1) ++ (chars (d + 1) v ++ (itemChars (d + 1) items ++
        (newline d ++ [']']))) := by
  simp only [chars, itemChars, pieces, List.flatMap_append, flatMap_putBefore, List.append_assoc]
  rfl

theorem itemChars_cons (d : Nat) (v : Value) (items : List Value) :
    itemChars d (v :: items) = ',' :: newline d ++ (chars d v ++ itemChars d items) := by
  simp only [chars, itemChars, itemPieces, List.flatMap_append, flatMap_putBefore, Piece.plain,
    List.append_assoc]

theorem chars_object_cons (d : Nat) (name : String) (v : Value) (fields : Fields) :
    chars d (.object ((name, v) :: fields)) =
      '\x7b' :: newline (d + 1) ++ (textChars name ++ ':' :: ' ' :: (chars (d + 1) v ++
        (fieldChars (d + 1) fields ++ (newline d ++ ['\x7d'])))) := by
  simp only [chars, fieldChars, pieces, List.map_cons, List.map_nil, List.flatMap_append,
    List.flatMap_cons, List.flatMap_nil, List.append_assoc]
  rfl

theorem fieldChars_cons (d : Nat) (name : String) (v : Value) (fields : Fields) :
    fieldChars d ((name, v) :: fields) =
      ',' :: newline d ++ (textChars name ++ ':' :: ' ' :: (chars d v ++ fieldChars d fields)) := by
  simp only [chars, fieldChars, fieldPieces, List.map_cons, List.map_nil, List.flatMap_append,
    List.flatMap_cons, List.flatMap_nil, List.append_assoc]
  rfl

/-! ## Blanks -/

theorem skipSpace_newline (d : Nat) (s : List Char) : skipSpace (newline d ++ s) = skipSpace s := by
  have hblanks : ∀ n, skipSpace (List.replicate n ' ' ++ s) = skipSpace s := by
    intro n
    induction n with
    | zero => rfl
    | succ n ih => exact ih
  exact hblanks (2 * d)

theorem skipSpace_cons {c : Char} (h : isSpace c = false) (s : List Char) :
    skipSpace (c :: s) = c :: s := by
  rw [skipSpace, List.dropWhile_cons_of_neg (by rw [h]; exact Bool.false_ne_true)]

/-- Whether a text starts as a value does. -/
def Starts (s : List Char) : Prop :=
  ∃ c t, s = c :: t ∧ isSpace c = false ∧ c ≠ ']'

theorem Starts.skipSpace {s : List Char} (h : Starts s) (rest : List Char) :
    skipSpace (s ++ rest) = s ++ rest := by
  obtain ⟨c, t, rfl, hspace, -⟩ := h
  exact skipSpace_cons hspace _

/-! ## Parts -/

/-- Whether a value is read wherever its text stands. -/
structure Reads (depth : Nat) (v : Value) : Prop where
  starts : ∀ d, Starts (chars d v)
  read : ∀ (d fuel : Nat) (rest : List Char), 2 * (chars d v).length ≤ fuel → Ends rest →
    readValue depth fuel (chars d v ++ rest) = .ok (v, rest)

/-- Neither blanks nor the marks of texts, lists and objects start a word or a number. -/
theorem readScalar_mark {c : Char}
    (hc : c = ' ' ∨ c = '\t' ∨ c = '\n' ∨ c = '\r' ∨ c = ']' ∨ c = '"' ∨ c = '[' ∨ c = '\x7b')
    (s : List Char) : readScalar (c :: s) = .error .malformed := by
  rcases hc with rfl | rfl | rfl | rfl | rfl | rfl | rfl | rfl <;> rfl

theorem readValue_of_readScalar {s : List Char} {p : Value × List Char} (h : readScalar s = .ok p)
    (depth fuel : Nat) : Starts s ∧ readValue depth (fuel + 1) s = .ok p := by
  cases s with
  | nil => cases h
  | cons c s =>
    have hmark : ¬(c = ' ' ∨ c = '\t' ∨ c = '\n' ∨ c = '\r' ∨ c = ']' ∨ c = '"' ∨ c = '[' ∨
        c = '\x7b') := by
      intro hc
      rw [readScalar_mark hc] at h
      cases h
    simp only [not_or] at hmark
    obtain ⟨hblank, htab, hline, hreturn, hbracket, hquote, hlist, hobject⟩ := hmark
    refine ⟨⟨c, s, rfl, by simp [isSpace, hblank, htab, hline, hreturn], hbracket⟩, ?_⟩
    rw [readValue]
    · exact h
    · rintro rest heq
      exact hquote (List.cons.inj heq).1
    · rintro rest heq
      exact hlist (List.cons.inj heq).1
    · rintro rest heq
      exact hobject (List.cons.inj heq).1

theorem reads_of_readsBack {v : Value} (hchars : ∀ d, chars d v = chars 0 v) (h : ReadsBack v)
    (depth : Nat) : Reads depth v := by
  refine ⟨fun d => ?_, fun d fuel rest hfuel hrest => ?_⟩
  · rw [hchars d]
    exact (readValue_of_readScalar h 0 0).1
  · rw [hchars d] at hfuel ⊢
    obtain ⟨c, t, hstart, -⟩ := (readValue_of_readScalar h 0 0).1
    obtain ⟨fuel, rfl⟩ : ∃ n, fuel = n + 1 := by
      rw [hstart, List.length_cons] at hfuel
      exact ⟨fuel - 1, by omega⟩
    have hread : readScalar (chars 0 v ++ rest) = .ok (v, rest) := by
      rw [readScalar_append hrest, h]
      rfl
    exact (readValue_of_readScalar hread depth fuel).2

theorem reads_text (s : String) (depth : Nat) : Reads depth (.text s) := by
  have hchars : ∀ d, chars d (.text s) = textChars s := fun d => List.append_nil _
  refine ⟨fun d => ?_, fun d fuel rest hfuel _ => ?_⟩
  · rw [hchars d]
    exact ⟨'"', _, rfl, rfl, by decide⟩
  · rw [hchars d] at hfuel ⊢
    have hpos : 0 < (textChars s).length := Nat.succ_pos _
    obtain ⟨fuel, rfl⟩ : ∃ n, fuel = n + 1 := ⟨fuel - 1, by omega⟩
    have hlength : (textChars s).length ≤ fuel := by omega
    obtain ⟨cs, hquote, hread⟩ := readText?_textChars s hlength rest
    rw [hquote, readValue, hread]
    simp only [String.ofList_toList]

/-! ## Lists -/

/-- What is done once an item is read. -/
theorem Reads.readItems {depth fuel d : Nat} {v : Value} {rest : List Char} (hv : Reads depth v)
    (hfuel : 2 * (chars d v).length ≤ fuel) (hrest : Ends rest) :
    Json.readItems depth (fuel + 1) (chars d v ++ rest) =
      match skipSpace rest with
      | ']' :: after => .ok ([v], after)
      | ',' :: more => Json.readItems depth fuel (skipSpace more) >>= fun p => .ok (v :: p.1, p.2)
      | _ => .error .malformed := by
  rw [Json.readItems, hv.read d fuel rest hfuel hrest]
  rfl

theorem readItems_of_reads {depth d k : Nat} {v : Value} {items : List Value}
    (hv : Reads depth v) (hitems : ∀ w ∈ items, Reads depth w) {fuel : Nat}
    (hfuel : 2 * ((chars d v).length + (itemChars d items).length) ≤ fuel) (rest : List Char) :
    readItems depth (fuel + 1) (chars d v ++ (itemChars d items ++ (newline k ++ ']' :: rest))) =
      .ok (v :: items, rest) := by
  -- on the items behind the first one, each of which pays for its step with its comma
  induction items generalizing v fuel with
  | nil =>
    have hclose : skipSpace (newline k ++ ']' :: rest) = ']' :: rest := by
      rw [skipSpace_newline, skipSpace_cons rfl]
    show readItems depth (fuel + 1) (chars d v ++ (newline k ++ ']' :: rest)) = _
    rw [hv.readItems (by omega) (ends_newline k _), hclose]
    rfl
  | cons w items ih =>
    obtain ⟨hw, hitems⟩ := List.forall_mem_cons.mp hitems
    have hlength : (itemChars d (w :: items)).length =
        (newline d).length + 1 + (chars d w).length + (itemChars d items).length := by
      rw [itemChars_cons, List.cons_append, List.length_cons, List.length_append,
        List.length_append]
      omega
    obtain ⟨fuel, rfl⟩ : ∃ n, fuel = n + 1 := ⟨fuel - 1, by omega⟩
    rw [itemChars_cons, List.append_assoc, List.cons_append]
    rw [hv.readItems (by omega) (ends_comma _), skipSpace_cons rfl]
    show readItems depth (fuel + 1) (skipSpace _) >>= _ = _
    rw [skipSpace_newline, List.append_assoc, (hw.starts d).skipSpace, ih hw hitems (by omega)]
    rfl

theorem readValue_list {depth fuel : Nat} {s body after : List Char} {items : List Value}
    (hbody : skipSpace s = body) (hstarts : Starts body)
    (hitems : readItems depth fuel body = .ok (items, after)) :
    readValue (depth + 1) (fuel + 1) ('[' :: s) = .ok (.list items, after) := by
  obtain ⟨c, t, rfl, -, hne⟩ := hstarts
  have hmatch : readValue (depth + 1) (fuel + 1) ('[' :: s) =
      (readItems depth fuel (c :: t) >>= fun p => .ok (.list p.1, p.2)) := by
    rw [readValue, hbody]
    split
    · next heq => exact absurd (List.cons.inj heq).1 hne
    · rfl
  rw [hmatch, hitems]
  rfl

theorem reads_list {depth : Nat} {items : List Value} (h : ∀ v ∈ items, Reads depth v) :
    Reads (depth + 1) (.list items) := by
  cases items with
  | nil =>
    refine ⟨fun d => ⟨'[', [']'], rfl, rfl, by decide⟩, fun d fuel rest hfuel _ => ?_⟩
    have hlength : (chars d (.list [])).length = 2 := rfl
    obtain ⟨fuel, rfl⟩ : ∃ n, fuel = n + 1 := ⟨fuel - 1, by omega⟩
    rfl
  | cons v items =>
    obtain ⟨hv, hitems⟩ := List.forall_mem_cons.mp h
    refine ⟨fun d => ?_, fun d fuel rest hfuel _ => ?_⟩
    · rw [chars_list_cons]
      exact ⟨'[', _, rfl, rfl, by decide⟩
    · rw [chars_list_cons] at hfuel ⊢
      simp only [List.cons_append, List.append_assoc, List.length_cons, List.length_append,
        List.nil_append] at hfuel ⊢
      obtain ⟨fuel, rfl⟩ : ∃ n, fuel = n + 2 := ⟨fuel - 2, by omega⟩
      have hstarts := hv.starts (d + 1)
      refine readValue_list (skipSpace_newline _ _) ?_ ?_
      · rw [hstarts.skipSpace]
        obtain ⟨c, t, hc, hspace, hne⟩ := hstarts
        rw [hc]
        exact ⟨c, _, rfl, hspace, hne⟩
      · rw [hstarts.skipSpace]
        exact readItems_of_reads hv hitems (by omega) rest

/-! ## Objects -/

theorem set_of_notMem {fields : Fields} {name : String} (h : name ∉ fields.names) (v : Value) :
    fields.set name v = fields ++ [(name, v)] := by
  induction fields with
  | nil => rfl
  | cons f fields ih =>
    obtain ⟨n, w⟩ := f
    have hne : n ≠ name := fun e => h (e ▸ List.mem_cons_self)
    have hrest : name ∉ Fields.names fields := fun e => h (List.mem_cons_of_mem _ e)
    rw [Fields.set, if_neg hne, ih hrest]
    rfl

theorem notMem_names {before fields : Fields} {name : String} {v : Value}
    (h : (before ++ (name, v) :: fields).names.Nodup) : name ∉ before.names := by
  intro hmem
  rw [Fields.names, List.map_append, List.nodup_append] at h
  exact h.2.2 name hmem name List.mem_cons_self rfl

/-- What is done once a field is read. -/
theorem Reads.readFields {depth fuel d : Nat} {name : String} {v : Value} {rest : List Char}
    (hv : Reads depth v) (hname : (textChars name).length ≤ fuel)
    (hfuel : 2 * (chars d v).length ≤ fuel) (hrest : Ends rest) (before : Fields) :
    Json.readFields depth (fuel + 1) (textChars name ++ ':' :: ' ' :: (chars d v ++ rest)) before =
      match skipSpace rest with
      | '\x7d' :: after => .ok (before.set name v, after)
      | ',' :: more => Json.readFields depth fuel (skipSpace more) (before.set name v)
      | _ => .error .malformed := by
  obtain ⟨cs, hquote, hread⟩ := readText?_textChars name hname (':' :: ' ' :: (chars d v ++ rest))
  rw [hquote, Json.readFields, hread]
  show (readValue depth fuel (skipSpace (chars d v ++ rest)) >>= fun p =>
    match skipSpace p.2 with
    | '\x7d' :: after => .ok (before.set (String.ofList name.toList) p.1, after)
    | ',' :: more =>
      Json.readFields depth fuel (skipSpace more) (before.set (String.ofList name.toList) p.1)
    | _ => .error .malformed) = _
  rw [(hv.starts d).skipSpace, hv.read d fuel rest hfuel hrest, String.ofList_toList]
  rfl

theorem readFields_of_reads {depth d k : Nat} {name : String} {v : Value} {fields : Fields}
    (hv : Reads depth v) (hfields : ∀ f ∈ fields, Reads depth f.2) {fuel : Nat}
    (hfuel : 2 * ((textChars name).length + (chars d v).length + (fieldChars d fields).length) ≤
      fuel) {before : Fields} (hapart : (before ++ (name, v) :: fields).names.Nodup)
    (rest : List Char) :
    readFields depth (fuel + 1) (textChars name ++ ':' :: ' ' :: (chars d v ++
      (fieldChars d fields ++ (newline k ++ '\x7d' :: rest)))) before =
        .ok (before ++ (name, v) :: fields, rest) := by
  have hset := set_of_notMem (notMem_names hapart) v
  induction fields generalizing name v fuel before with
  | nil =>
    have hclose : skipSpace (newline k ++ '\x7d' :: rest) = '\x7d' :: rest := by
      rw [skipSpace_newline, skipSpace_cons rfl]
    show readFields depth (fuel + 1) (textChars name ++ ':' :: ' ' :: (chars d v ++
      (newline k ++ '\x7d' :: rest))) before = _
    rw [hv.readFields (by omega) (by omega) (ends_newline k _), hclose]
    show Except.ok (before.set name v, rest) = _
    rw [hset]
  | cons f fields ih =>
    obtain ⟨n, w⟩ := f
    obtain ⟨hw, hfields⟩ : Reads depth w ∧ ∀ f ∈ fields, Reads depth f.2 :=
      List.forall_mem_cons.mp hfields
    have hlength : (fieldChars d ((n, w) :: fields)).length =
        (newline d).length + 3 + (textChars n).length + (chars d w).length +
          (fieldChars d fields).length := by
      rw [fieldChars_cons]
      simp only [List.cons_append, List.length_cons, List.length_append]
      omega
    have hnames : before ++ (name, v) :: (n, w) :: fields =
        (before.set name v) ++ (n, w) :: fields := by
      rw [hset, List.append_assoc]
      rfl
    obtain ⟨fuel, rfl⟩ : ∃ n, fuel = n + 1 := ⟨fuel - 1, by omega⟩
    rw [hnames] at hapart ⊢
    rw [fieldChars_cons, List.append_assoc, List.cons_append,
      hv.readFields (by omega) (by omega) (ends_comma _), skipSpace_cons rfl]
    show readFields depth (fuel + 1) (skipSpace _) _ = _
    have hskip : ∀ t, skipSpace (newline d ++ (textChars n ++ t)) = textChars n ++ t :=
      fun t => (skipSpace_newline d _).trans (skipSpace_cons rfl _)
    simp only [List.append_assoc, List.cons_append, hskip]
    exact ih hw hfields (by omega) hapart (set_of_notMem (notMem_names hapart) w)

theorem readValue_object {depth fuel : Nat} {name : String} {s body after : List Char}
    {fields : Fields} (hbody : skipSpace s = textChars name ++ body)
    (hfields : readFields depth fuel (textChars name ++ body) [] = .ok (fields, after)) :
    readValue (depth + 1) (fuel + 1) ('\x7b' :: s) = .ok (.object fields, after) := by
  have hmatch : readValue (depth + 1) (fuel + 1) ('\x7b' :: s) =
      (readFields depth fuel (textChars name ++ body) [] >>= fun p => .ok (.object p.1, p.2)) := by
    rw [readValue, hbody]
    rfl
  rw [hmatch, hfields]
  rfl

theorem reads_object {depth : Nat} {fields : Fields} (hapart : fields.names.Nodup)
    (h : ∀ f ∈ fields, Reads depth f.2) : Reads (depth + 1) (.object fields) := by
  cases fields with
  | nil =>
    refine ⟨fun d => ⟨'\x7b', ['\x7d'], rfl, rfl, by decide⟩, fun d fuel rest hfuel _ => ?_⟩
    have hlength : (chars d (.object [])).length = 2 := rfl
    obtain ⟨fuel, rfl⟩ : ∃ n, fuel = n + 1 := ⟨fuel - 1, by omega⟩
    rfl
  | cons f fields =>
    obtain ⟨name, v⟩ := f
    obtain ⟨hv, hfields⟩ : Reads depth v ∧ ∀ f ∈ fields, Reads depth f.2 :=
      List.forall_mem_cons.mp h
    refine ⟨fun d => ?_, fun d fuel rest hfuel _ => ?_⟩
    · rw [chars_object_cons]
      exact ⟨'\x7b', _, rfl, rfl, by decide⟩
    · rw [chars_object_cons] at hfuel ⊢
      simp only [List.cons_append, List.append_assoc, List.length_cons, List.length_append,
        List.nil_append] at hfuel ⊢
      obtain ⟨fuel, rfl⟩ : ∃ n, fuel = n + 2 := ⟨fuel - 2, by omega⟩
      have hlength : 2 * ((textChars name).length + (chars (d + 1) v).length +
          (fieldChars (d + 1) fields).length) ≤ fuel := by omega
      have hnames : Fields.names ([] ++ (name, v) :: fields) |>.Nodup := hapart
      have hread := readFields_of_reads (k := d) hv hfields hlength hnames rest
      exact readValue_object ((skipSpace_newline _ _).trans (skipSpace_cons rfl _)) hread

/-! ## Whole documents -/

theorem Legible.reads {depth : Nat} {v : Value} (h : Legible depth v) : Reads depth v := by
  induction h with
  | null =>
    refine reads_of_readsBack (fun _ => rfl) ?_ _
    show readScalar _ = _
    rfl
  | @bool _ b =>
    refine reads_of_readsBack (fun _ => rfl) ?_ _
    show readScalar _ = _
    cases b <;> rfl
  | int back => exact reads_of_readsBack (fun _ => rfl) back _
  | float back => exact reads_of_readsBack (fun _ => rfl) back _
  | text => exact reads_text _ _
  | list each ih => exact reads_list ih
  | object apart each ih => exact reads_object apart ih

theorem toList_print (v : Value) : (print v).toList = chars 0 v := by
  have hjoin : ∀ ps : List Piece,
      (String.join (ps.map Piece.text)).toList = ps.flatMap Piece.chars := by
    intro ps
    induction ps with
    | nil => rfl
    | cons p ps ih =>
      rw [List.map_cons, String.join_cons, String.toList_append, ih, List.flatMap_cons, Piece.text,
        String.toList_ofList]
  exact hjoin _

/-- A document that can be read back is read as the value it was written for. -/
theorem Legible.read_print {depth : Nat} {v : Value} (h : Legible depth v) :
    read depth (print v) = .ok v := by
  have hstart : skipSpace (chars 0 v) = chars 0 v := by
    have hskip := (h.reads.starts 0).skipSpace []
    rwa [List.append_nil] at hskip
  have hread := h.reads.read 0 (2 * (chars 0 v).length + 1) [] (by omega) ends_nil
  rw [List.append_nil] at hread
  rw [read, toList_print, hstart]
  show (readValue depth (2 * (chars 0 v).length + 1) (chars 0 v) >>= fun p =>
    if (skipSpace p.2).isEmpty then .ok p.1 else .error .malformed) = _
  rw [hread]
  rfl

/-- The same for the bytes of a document, if it has any. -/
theorem Legible.readBytes {depth : Nat} {v : Value} (h : Legible depth v)
    (hbytes : (printedPieces v).all Text.isEncodable = true) :
    Json.readBytes depth ((printedPieces v).flatMap Text.utf8) = .ok v := by
  rw [Json.readBytes, Text.ofUtf8?_flatMap_utf8 hbytes]
  exact h.read_print

end Json
end VoxelCurve
