import Mathlib.Data.List.Basic
import VoxelCurve.Files.Path

/-!
The last name of a path.

A name is its stem with its suffix behind it, and the suffix is empty or starts with a dot.  So
changing the suffix changes the last name of a path and nothing else, and gives the path back if
the suffix was the new one.  A text that ends in no slash is read as a path whose last name ends
like the text.

What is read from a text has names that hold no slash and are neither empty nor a lone dot, and
such a path is read again from the text that it is written as.
-/

namespace VoxelCurve
namespace Path

/-! ## Suffixes -/

theorem splitSuffix_append (name : List Char) :
    (splitSuffix name).1 ++ (splitSuffix name).2 = name := by
  have hwhole := List.takeWhile_append_dropWhile (p := (· != '.')) (l := name.reverse)
  unfold splitSuffix
  simp only
  split
  · next c stem hdrop =>
    split
    · exact List.append_nil name
    · rw [hdrop] at hwhole
      generalize List.takeWhile (· != '.') name.reverse = last at hwhole
      calc (c :: stem).reverse ++ '.' :: last.reverse
          = (last ++ '.' :: c :: stem).reverse := by
            simp only [List.reverse_append, List.reverse_cons, List.append_assoc,
              List.cons_append, List.nil_append]
        _ = name := by rw [hwhole, List.reverse_reverse]
  · exact List.append_nil name

/-- A suffix starts at the last dot, if something stands on either side of it. -/
theorem splitSuffix_of_notMem {stem ext : List Char} (hstem : stem ≠ []) (hext : ext ≠ [])
    (hdot : '.' ∉ ext) : splitSuffix (stem ++ '.' :: ext) = (stem, '.' :: ext) := by
  have hbefore : ∀ c ∈ ext.reverse, (c != '.') = true := by
    intro c hc
    rw [bne_iff_ne]
    rintro rfl
    exact hdot (List.mem_reverse.mp hc)
  have hreverse : (stem ++ '.' :: ext).reverse = ext.reverse ++ '.' :: stem.reverse := by simp
  have htake : (stem ++ '.' :: ext).reverse.takeWhile (· != '.') = ext.reverse := by
    rw [hreverse, List.takeWhile_append_of_pos hbefore]
    simp
  have hdrop : (stem ++ '.' :: ext).reverse.dropWhile (· != '.') = '.' :: stem.reverse := by
    rw [hreverse, List.dropWhile_append_of_pos hbefore]
    simp
  rw [splitSuffix, htake, hdrop]
  cases hlast : stem.reverse with
  | nil => exact absurd (List.reverse_eq_nil_iff.mp hlast) hstem
  | cons c rest =>
    show (if ext.reverse.isEmpty then _ else ((c :: rest).reverse, '.' :: ext.reverse.reverse)) = _
    rw [if_neg (by simpa using hext), ← hlast, List.reverse_reverse, List.reverse_reverse]

theorem head?_suffix (name : List Char) : ∀ c ∈ (splitSuffix name).2.head?, c = '.' := by
  unfold splitSuffix
  simp only
  split
  · split
    · exact fun c hc => absurd hc (Option.not_mem_none c)
    · exact fun c hc => (Option.mem_some.mp hc).symm
  · exact fun c hc => absurd hc (Option.not_mem_none c)

/-- The suffix of the last name. -/
def suffix (p : Path) : String :=
  String.ofList (splitSuffix (p.name?.getD "").toList).2

theorem exists_names_of_name? {p : Path} {name : String} (h : p.name? = some name) :
    p.names = p.names.dropLast ++ [name] :=
  (List.dropLast_append_getLast? name h).symm

/-- Only the last name of a path has another suffix then. -/
theorem exists_of_withSuffix? {p q : Path} {ext : String} (h : p.withSuffix? ext = some q) :
    ∃ name, p.name? = some name ∧ p.names = p.names.dropLast ++ [name] ∧
      q = { p with names := p.names.dropLast ++
        [String.ofList (splitSuffix name.toList).1 ++ ext] } := by
  obtain ⟨name, hname, hq⟩ := Option.map_eq_some_iff.mp h
  exact ⟨name, hname, exists_names_of_name? hname, hq.symm⟩

theorem withSuffix?_suffix {p : Path} {name : String} (h : p.name? = some name) :
    p.withSuffix? p.suffix = some p := by
  have hsuffix : p.suffix = String.ofList (splitSuffix name.toList).2 := by
    rw [suffix, h, Option.getD_some]
  have hsame : String.ofList (splitSuffix name.toList).1 ++ p.suffix = name := by
    rw [hsuffix, ← String.ofList_append, splitSuffix_append, String.ofList_toList]
  rw [withSuffix?, h, Option.map_some]
  simp only [hsame, ← exists_names_of_name? h]

/-! ## Reading a path -/

theorem segments_ne_nil (s : List Char) : segments s ≠ [] := by
  cases s with
  | nil => exact List.cons_ne_nil _ _
  | cons c s =>
    rw [segments]
    split
    · exact List.cons_ne_nil _ _
    · split <;> exact List.cons_ne_nil _ _

theorem segments_of_not_mem {s : List Char} (h : '/' ∉ s) : segments s = [s] := by
  induction s with
  | nil => rfl
  | cons c s ih =>
    rw [List.mem_cons, not_or] at h
    rw [segments, if_neg (Ne.symm h.1), ih h.2]

/-- The last piece of a text ends like the text, up to a slash. -/
theorem exists_getLast?_segments (s : List Char) {t : List Char} (ht : '/' ∉ t) :
    ∃ u, (segments (s ++ t)).getLast? = some (u ++ t) := by
  induction s with
  | nil => exact ⟨[], by rw [List.nil_append, segments_of_not_mem ht]; rfl⟩
  | cons c s ih =>
    obtain ⟨u, hu⟩ := ih
    rw [List.cons_append, segments]
    split
    · refine ⟨u, ?_⟩
      rw [List.getLast?_cons_of_ne_nil (segments_ne_nil _), hu]
    · rcases hsegments : segments (s ++ t) with _ | ⟨first, _ | ⟨second, more⟩⟩
      · exact absurd hsegments (segments_ne_nil _)
      · rw [hsegments] at hu
        have hfirst : first = u ++ t := Option.some.inj hu
        exact ⟨c :: u, by rw [hfirst]; rfl⟩
      · rw [hsegments] at hu
        exact ⟨u, hu⟩

theorem isName_of_length {s : List Char} (h : 1 < s.length) : isName s = true := by
  rw [isName, Bool.and_eq_true, Bool.not_eq_true', bne_iff_ne, List.isEmpty_eq_false_iff]
  constructor
  · rintro rfl
    exact absurd h (by decide)
  · rintro rfl
    exact absurd h (by decide)

theorem exists_name?_ofText (s : List Char) {t : List Char} (ht : '/' ∉ t) (hlong : 1 < t.length) :
    ∃ u, (ofText (String.ofList (s ++ t))).name? = some (String.ofList (u ++ t)) := by
  obtain ⟨u, hu⟩ := exists_getLast?_segments s ht
  refine ⟨u, ?_⟩
  have hname : isName (u ++ t) = true := by
    refine isName_of_length ?_
    rw [List.length_append]
    omega
  have hsegments := (List.dropLast_append_getLast? _ hu).symm
  rw [name?, ofText, String.toList_ofList, hsegments, List.filter_append, List.filter_cons,
    if_pos hname, List.filter_nil, List.map_append]
  exact List.getLast?_concat

/-- A path that is joined to another ends like it. -/
theorem name?_join {p : Path} {text name : String} (h : (ofText text).name? = some name) :
    (p.join text).name? = some name := by
  unfold join
  simp only
  split
  · rw [name?, List.getLast?_append, show (ofText text).names.getLast? = some name from h]
    rfl
  · exact h

/-- A text without slashes leads on by one name. -/
theorem join_of_notMem (p : Path) {text : String} (hname : isName text.toList = true)
    (hslash : '/' ∉ text.toList) : p.join text = { p with names := p.names ++ [text] } := by
  have hroot : rootOf text.toList = .working := by
    cases htext : text.toList with
    | nil => rfl
    | cons c rest =>
      have hc : (c == '/') = false := by
        rw [beq_eq_false_iff_ne]
        rintro rfl
        exact hslash (htext ▸ List.mem_cons_self)
      simp [rootOf, hc]
  have hread : ofText text = ⟨.working, [text]⟩ := by
    simp [ofText, hroot, segments_of_not_mem hslash, hname]
  rw [join, hread]

/-! ## Reading what was written -/

theorem segments_append {s : List Char} (h : '/' ∉ s) (rest : List Char) :
    segments (s ++ '/' :: rest) = s :: segments rest := by
  induction s with
  | nil => rw [List.nil_append, segments, if_pos rfl]
  | cons c s ih =>
    rw [List.mem_cons, not_or] at h
    rw [List.cons_append, segments, if_neg (Ne.symm h.1), ih h.2]

theorem segments_intercalate {names : List (List Char)} (hne : names ≠ [])
    (h : ∀ s ∈ names, '/' ∉ s) : segments (List.intercalate ['/'] names) = names := by
  induction names with
  | nil => exact absurd rfl hne
  | cons s rest ih =>
    obtain ⟨hs, hrest⟩ := List.forall_mem_cons.mp h
    cases rest with
    | nil => rw [List.intercalate_singleton, segments_of_not_mem hs]
    | cons t more =>
      rw [List.intercalate_cons_cons, List.append_assoc, List.cons_append, List.nil_append,
        segments_append hs, ih (List.cons_ne_nil t more) hrest]

theorem filter_segments_slash (s : List Char) :
    (segments ('/' :: s)).filter isName = (segments s).filter isName := by
  rw [segments, if_pos rfl]
  exact List.filter_cons_of_neg Bool.false_ne_true

theorem not_mem_of_mem_segments {s t : List Char} (h : t ∈ segments s) : '/' ∉ t := by
  induction s generalizing t with
  | nil =>
    rw [segments, List.mem_singleton] at h
    rw [h]
    exact List.not_mem_nil
  | cons c s ih =>
    rw [segments] at h
    split at h
    · obtain rfl | ht := List.mem_cons.mp h
      · exact List.not_mem_nil
      · exact ih ht
    · next hc =>
      split at h
      · next first more hsegments =>
        rw [hsegments] at ih
        obtain rfl | ht := List.mem_cons.mp h
        · exact List.not_mem_cons_of_ne_of_not_mem (Ne.symm hc) (ih List.mem_cons_self)
        · exact ih (List.mem_cons_of_mem first ht)
      · next hsegments => exact absurd hsegments (segments_ne_nil s)

/-- Paths whose names are read as they are written. -/
def IsReadable (p : Path) : Prop :=
  ∀ name ∈ p.names, isName name.toList = true ∧ '/' ∉ name.toList

theorem isReadable_ofText (text : String) : (ofText text).IsReadable := by
  intro name hname
  obtain ⟨s, hs, rfl⟩ := List.mem_map.mp hname
  obtain ⟨hsegment, hisName⟩ := List.mem_filter.mp hs
  rw [String.toList_ofList]
  exact ⟨hisName, not_mem_of_mem_segments hsegment⟩

section Written

variable {p : Path} (h : p.IsReadable)

include h

theorem names_of_segments :
    ((segments (List.intercalate ['/'] (p.names.map String.toList))).filter isName).map
      String.ofList = p.names := by
  cases hnames : p.names with
  | nil => rfl
  | cons first more =>
    have hslash : ∀ s ∈ p.names.map String.toList, '/' ∉ s := by
      intro s hs
      obtain ⟨name, hname, rfl⟩ := List.mem_map.mp hs
      exact (h name hname).2
    have hall : (p.names.map String.toList).filter isName = p.names.map String.toList := by
      rw [List.filter_eq_self]
      intro s hs
      obtain ⟨name, hname, rfl⟩ := List.mem_map.mp hs
      exact (h name hname).1
    rw [← hnames, segments_intercalate (by rw [hnames]; exact List.cons_ne_nil _ _) hslash, hall,
      List.map_map]
    exact (List.map_congr_left fun name _ => String.ofList_toList).trans (List.map_id _)

theorem takeWhile_slash :
    (List.intercalate ['/'] (p.names.map String.toList)).takeWhile (· == '/') = [] := by
  cases hnames : p.names with
  | nil => rfl
  | cons first more =>
    obtain ⟨hisName, hslash⟩ := h first (hnames ▸ List.mem_cons_self)
    cases hfirst : first.toList with
    | nil =>
      rw [hfirst] at hisName
      exact absurd hisName (by decide)
    | cons c s =>
      have hc : (c == '/') = false := by
        rw [beq_eq_false_iff_ne]
        rintro rfl
        exact hslash (hfirst ▸ List.mem_cons_self)
      rw [List.map_cons, hfirst]
      cases more with
      | nil => rw [List.map_nil, List.intercalate_singleton, List.takeWhile_cons, hc]; rfl
      | cons second more =>
        rw [List.map_cons, List.intercalate_cons_cons, List.append_assoc, List.cons_append,
          List.takeWhile_cons, hc]
        rfl

/-- A path is read again from its text. -/
theorem ofText_text : ofText p.text = p := by
  have hnames := names_of_segments h
  have hslash := takeWhile_slash h
  have hjoined : ("/".intercalate p.names).toList =
      List.intercalate ['/'] (p.names.map String.toList) := String.toList_intercalate
  have hone : "/".toList = ['/'] := rfl
  have htwo : "//".toList = ['/', '/'] := rfl
  obtain ⟨root, names⟩ := p
  simp only at hnames hslash hjoined
  cases root with
  | working =>
    cases names with
    | nil => rfl
    | cons first more =>
      simp only [text, List.isEmpty_cons, Bool.false_eq_true, if_false, ofText, rootOf, hjoined,
        hslash, hnames]
      rfl
  | single =>
    simp only [text, ofText, rootOf, String.toList_append, hjoined, hone, List.cons_append,
      List.nil_append, List.takeWhile_cons_of_pos, beq_self_eq_true, hslash, filter_segments_slash,
      hnames]
    rfl
  | double =>
    simp only [text, ofText, rootOf, String.toList_append, hjoined, htwo, List.cons_append,
      List.nil_append, List.takeWhile_cons_of_pos, beq_self_eq_true, hslash, filter_segments_slash,
      hnames]
    rfl

end Written

end Path
end VoxelCurve
