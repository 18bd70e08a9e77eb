import VoxelCurve.Files.Tree
import VoxelCurve.Proofs.Success

/-!
What stays where it was.

A path leads through directories only.  So whoever leaves the directories of a tree alone leaves
every path leading where it led (`Ways`), and both actions do: making a directory changes nothing
that is there, and a file is never put in the place of a directory.  Paths that differ in their
last names only lead apart, if the files tell these names apart.
-/

namespace VoxelCurve

namespace Location

theorem child_injective (l : Location) : Function.Injective l.child := by
  intro a b h
  have hnames := congrArg names h
  exact (List.cons.inj hnames).1

theorem child_ne_parent (l : Location) (name : String) : l.child name ≠ l.parent := by
  intro h
  have hdepth : l.depth + 1 = l.depth - 1 := congrArg depth h
  omega

end Location

namespace Tree

variable {t t' : Tree}

/-! ## Nodes -/

theorem lookup_putNode (l m : Location) (node : Node) (nodes : List (Location × Node)) :
    (putNode l node nodes).lookup m = if m = l then some node else nodes.lookup m := by
  induction nodes with
  | nil =>
    rw [putNode, List.lookup_cons, List.lookup_nil]
    by_cases h : m = l
    · rw [if_pos h, beq_iff_eq.mpr h]
    · rw [if_neg h, beq_eq_false_iff_ne.mpr h]
  | cons n nodes ih =>
    rw [putNode]
    by_cases hn : n.1 = l
    · rw [if_pos hn, List.lookup_cons, List.lookup_cons, hn]
      by_cases h : m = l
      · rw [if_pos h, beq_iff_eq.mpr h]
      · rw [if_neg h, beq_eq_false_iff_ne.mpr h]
    · rw [if_neg hn, List.lookup_cons, List.lookup_cons, ih]
      by_cases h : m = n.1
      · have hl : m ≠ l := fun hl => hn (h.symm.trans hl)
        simp only [beq_iff_eq.mpr h, if_neg hl]
      · rw [beq_eq_false_iff_ne.mpr h]

theorem find?_put {l : Location} (hl : l ≠ .root) (node : Node) (m : Location) :
    (t.put l node).find? m = if m = l then some node else t.find? m := by
  simp only [find?, put, lookup_putNode]
  by_cases hm : m = .root
  · rw [if_pos hm, if_pos hm, if_neg (fun h => hl (h.symm.trans hm))]
  · rw [if_neg hm, if_neg hm]

theorem ne_root_of_find? {l : Location} (h : t.find? l ≠ some .directory) : l ≠ .root := by
  intro hl
  exact h (if_pos hl)

/-! ## Ways -/

/-- Whether every directory of a tree is one of another. -/
structure Ways (t t' : Tree) : Prop where
  working : t'.working = t.working
  directory : ∀ l, t.find? l = some .directory → t'.find? l = some .directory

/-- Whether everything in a tree is in another. -/
structure Keeps (t t' : Tree) : Prop where
  working : t'.working = t.working
  find? : ∀ l node, t.find? l = some node → t'.find? l = some node

/-- Whether a tree holds everything of another and, besides, nothing but directories. -/
structure AddsDirectories (t t' : Tree) : Prop extends Keeps t t' where
  added : ∀ l node, t'.find? l = some node → t.find? l = some node ∨ node = .directory

theorem AddsDirectories.refl (t : Tree) : AddsDirectories t t :=
  ⟨⟨rfl, fun _ _ h => h⟩, fun _ _ h => Or.inl h⟩

theorem AddsDirectories.trans {t'' : Tree} (h : AddsDirectories t t')
    (h' : AddsDirectories t' t'') : AddsDirectories t t'' := by
  refine ⟨⟨h'.working.trans h.working, fun l node hl => h'.find? l node (h.find? l node hl)⟩, ?_⟩
  intro l node hl
  rcases h'.added l node hl with hl' | hnode
  · exact h.added l node hl'
  · exact Or.inr hnode

/-- Whether two trees hold the same files, each with the same bytes. -/
def SameFiles (t t' : Tree) : Prop :=
  ∀ l bytes, t'.find? l = some (.file bytes) ↔ t.find? l = some (.file bytes)

theorem AddsDirectories.sameFiles (h : AddsDirectories t t') : SameFiles t t' := by
  intro l bytes
  constructor
  · intro hl
    rcases h.added l _ hl with hl | hnode
    · exact hl
    · cases hnode
  · exact h.find? l _

theorem Keeps.ways (h : Keeps t t') : Ways t t' :=
  ⟨h.working, fun l => h.find? l .directory⟩

theorem Ways.trans {t'' : Tree} (h : Ways t t') (h' : Ways t' t'') : Ways t t'' :=
  ⟨h'.working.trans h.working, fun l hl => h'.directory l (h.directory l hl)⟩

theorem addsDirectories_put {l : Location} (h : t.find? l = none) :
    AddsDirectories t (t.put l .directory) := by
  have hroot : l ≠ .root := ne_root_of_find? (by rw [h]; exact Option.some_ne_none _ |>.symm)
  refine ⟨⟨rfl, fun m other hm => ?_⟩, fun m other hm => ?_⟩
  · have hne : m ≠ l := by
      rintro rfl
      rw [h] at hm
      cases hm
    rw [find?_put hroot, if_neg hne, hm]
  · rw [find?_put hroot] at hm
    split at hm
    · exact Or.inr (Option.some.inj hm).symm
    · exact Or.inl hm

theorem ways_put {l : Location} (h : t.find? l ≠ some .directory) (bytes : List UInt8) :
    Ways t (t.put l (.file bytes)) := by
  refine ⟨rfl, ?_⟩
  intro m hm
  have hne : m ≠ l := by
    rintro rfl
    exact h hm
  rw [find?_put (ne_root_of_find? h), if_neg hne, hm]

theorem follow_cons_eq_ok_iff {l m : Location} {name : String} {rest : List String} :
    t.follow l (name :: rest) = .ok m ↔ t.find? l = some .directory ∧
      (name = ".." ∧ t.follow l.parent rest = .ok m ∨
        name ≠ ".." ∧ FileName.byteSize name ≤ maxNameBytes ∧
          t.follow (l.child name) rest = .ok m) := by
  rw [follow]
  rcases hfind : t.find? l with _ | _ | bytes
  · simp only [reduceCtorEq, false_and]
  · by_cases hdots : name = ".."
    · simp only [hdots, if_true, true_and, ne_eq, not_true_eq_false, false_and, or_false]
    · by_cases hlong : FileName.byteSize name > maxNameBytes
      · have hnot : ¬FileName.byteSize name ≤ maxNameBytes := Nat.not_le.mpr hlong
        simp only [hdots, if_false, if_pos hlong, hnot, reduceCtorEq, false_and, and_false, or_self]
      · have hshort : FileName.byteSize name ≤ maxNameBytes := Nat.not_lt.mp hlong
        simp only [hdots, if_false, if_neg hlong, hshort, true_and, false_and, false_or, ne_eq,
          not_false_eq_true]
  · simp only [reduceCtorEq, Option.some.injEq, false_and]

theorem Ways.follow (h : Ways t t') {l m : Location} {names : List String}
    (hm : t.follow l names = .ok m) : t'.follow l names = .ok m := by
  induction names generalizing l with
  | nil => exact hm
  | cons name rest ih =>
    obtain ⟨hdir, hrest⟩ := follow_cons_eq_ok_iff.mp hm
    refine follow_cons_eq_ok_iff.mpr ⟨h.directory l hdir, ?_⟩
    rcases hrest with ⟨hdots, hrest⟩ | ⟨hdots, hshort, hrest⟩
    · exact Or.inl ⟨hdots, ih hrest⟩
    · exact Or.inr ⟨hdots, hshort, ih hrest⟩

theorem follow_append {l m : Location} {names rest : List String}
    (h : t.follow l (names ++ rest) = .ok m) :
    ∃ n, t.follow l names = .ok n ∧ t.follow n rest = .ok m := by
  induction names generalizing l with
  | nil => exact ⟨l, rfl, h⟩
  | cons name names ih =>
    obtain ⟨hdir, hrest⟩ := follow_cons_eq_ok_iff.mp h
    rcases hrest with ⟨hdots, hrest⟩ | ⟨hdots, hshort, hrest⟩
    · obtain ⟨n, hn, hm⟩ := ih hrest
      exact ⟨n, follow_cons_eq_ok_iff.mpr ⟨hdir, Or.inl ⟨hdots, hn⟩⟩, hm⟩
    · obtain ⟨n, hn, hm⟩ := ih hrest
      exact ⟨n, follow_cons_eq_ok_iff.mpr ⟨hdir, Or.inr ⟨hdots, hshort, hn⟩⟩, hm⟩

/-! ## Paths -/

theorem locate_eq_ok_iff {p : Path} {l : Location} {node? : Option Node} :
    t.locate p = .ok (l, node?) ↔
      (p.names.all FileName.isUsable = true ∧ ¬p.names.any (·.contains '\x00') = true ∧
        ¬FileName.byteSize p.text > maxPathBytes) ∧
      t.follow (t.start p) (p.names.map FileName.readBack) = .ok l ∧ t.find? l = node? := by
  rw [locate]
  by_cases husable : p.names.all FileName.isUsable = true
  · by_cases hzero : p.names.any (·.contains '\x00') = true
    · simp only [husable, hzero, Bool.not_true, Bool.false_eq_true, if_false, if_true, reduceCtorEq,
        not_true_eq_false, false_and, and_false]
    · by_cases hlong : FileName.byteSize p.text > maxPathBytes
      · simp only [husable, hzero, hlong, Bool.not_true, Bool.false_eq_true, if_false, if_true,
          reduceCtorEq, not_true_eq_false, false_and, and_false]
      · cases t.follow (t.start p) (p.names.map FileName.readBack) with
        | error fault =>
          simp only [husable, hzero, hlong, Bool.not_true, Bool.false_eq_true, if_false, Except.map,
            reduceCtorEq, false_and, and_false]
        | ok m =>
          simp only [husable, hzero, hlong, Bool.not_true, Bool.false_eq_true, if_false, Except.map,
            Except.ok.injEq, Prod.mk.injEq, not_false_eq_true, true_and]
          constructor
          · rintro ⟨rfl, h⟩
            exact ⟨rfl, h⟩
          · rintro ⟨rfl, h⟩
            exact ⟨rfl, h⟩
  · simp only [Bool.eq_false_iff.mpr husable, Bool.not_false, if_true, reduceCtorEq,
      Bool.false_eq_true, false_and]

theorem Ways.start (h : Ways t t') (p : Path) : t'.start p = t.start p := by
  rw [Tree.start, Tree.start, h.working]

/-- A path that leads somewhere goes on leading there. -/
theorem Ways.locate (h : Ways t t') {p : Path} {l : Location} {node? : Option Node}
    (hp : t.locate p = .ok (l, node?)) : t'.locate p = .ok (l, t'.find? l) := by
  obtain ⟨hpath, hfollow, -⟩ := locate_eq_ok_iff.mp hp
  refine locate_eq_ok_iff.mpr ⟨hpath, ?_, rfl⟩
  rw [h.start]
  exact h.follow hfollow

/-- Where the last name of a path leads from the directory before it. -/
theorem exists_directory_of_locate {p : Path} {l : Location} {node? : Option Node}
    {init : List String} {name : String} (hnames : p.names = init ++ [name])
    (h : t.locate p = .ok (l, node?)) :
    ∃ dir, t.follow (t.start p) (init.map FileName.readBack) = .ok dir ∧
      (FileName.readBack name = ".." ∧ l = dir.parent ∨
        FileName.readBack name ≠ ".." ∧ l = dir.child (FileName.readBack name)) := by
  obtain ⟨-, hfollow, -⟩ := locate_eq_ok_iff.mp h
  rw [hnames, List.map_append] at hfollow
  obtain ⟨dir, hdir, hlast⟩ := follow_append hfollow
  refine ⟨dir, hdir, ?_⟩
  rcases (follow_cons_eq_ok_iff.mp hlast).2 with ⟨hdots, hl⟩ | ⟨hdots, -, hl⟩
  · exact Or.inl ⟨hdots, (Except.ok.inj hl).symm⟩
  · exact Or.inr ⟨hdots, (Except.ok.inj hl).symm⟩

/-- Two names in one directory lead apart. -/
theorem locate_ne (hways : Ways t t') {p q : Path} {l m : Location} {node? node'? : Option Node}
    {init : List String} {a b : String} (hroot : q.root = p.root)
    (hp : p.names = init ++ [a]) (hq : q.names = init ++ [b])
    (hl : t.locate p = .ok (l, node?)) (hm : t'.locate q = .ok (m, node'?))
    (hdots : FileName.readBack b ≠ "..") (hne : FileName.readBack a ≠ FileName.readBack b) :
    l ≠ m := by
  obtain ⟨dir, hdir, hl⟩ := exists_directory_of_locate hp hl
  obtain ⟨dir', hdir', hm⟩ := exists_directory_of_locate hq hm
  have hstart : t'.start q = t.start p := by
    rw [hways.start, Tree.start, Tree.start, hroot]
  rw [hstart, hways.follow hdir] at hdir'
  obtain rfl := Except.ok.inj hdir'
  rcases hm with ⟨hb, -⟩ | ⟨-, rfl⟩
  · exact absurd hb hdots
  · rcases hl with ⟨-, rfl⟩ | ⟨-, rfl⟩
    · exact (dir.child_ne_parent _).symm
    · exact fun h => hne (dir.child_injective h)

/-! ## Reading -/

/-- Why a path may lead nowhere. -/
def pathFaults : List FileFault :=
  [.notFound, .notDirectory, .zeroCharacter, .notEncodable, .nameTooLong]

theorem mem_pathFaults_of_follow {l : Location} {names : List String}
    {fault : FileFault} (h : t.follow l names = .error fault) : fault ∈ pathFaults := by
  induction names generalizing l with
  | nil => cases h
  | cons name rest ih =>
    rw [follow] at h
    split at h
    · cases h
      decide
    · cases h
      decide
    · split at h
      · exact ih h
      · split at h
        · cases h
          decide
        · exact ih h

theorem mem_pathFaults_of_locate {p : Path} {fault : FileFault}
    (h : t.locate p = .error fault) : fault ∈ pathFaults := by
  unfold locate at h
  split at h
  · cases h
    decide
  · split at h
    · cases h
      decide
    · split at h
      · cases h
        decide
      · cases hfollow : t.follow (t.start p) (p.names.map FileName.readBack) with
        | error fault' =>
          rw [hfollow] at h
          cases h
          exact mem_pathFaults_of_follow hfollow
        | ok l =>
          rw [hfollow] at h
          cases h

/-- Where there is no directory, only the path can keep a file from being read. -/
theorem mem_pathFaults_of_read {p : Path} {e : FileError} (h : t.read p = .error e)
    (hdirectory : t.isDirectory p = false) : e.fault ∈ pathFaults := by
  unfold isDirectory at hdirectory
  unfold read at h
  split at h
  · next hlocate =>
    cases h
    exact mem_pathFaults_of_locate hlocate
  · cases h
    exact List.mem_cons_self
  · next hlocate =>
    rw [hlocate] at hdirectory
    cases hdirectory
  · cases h

theorem isDirectory_of_read {p : Path} {bytes : List UInt8}
    (h : t.read p = .ok bytes) : t.isDirectory p = false := by
  unfold read at h
  unfold isDirectory
  split at h
  · cases h
  · cases h
  · cases h
  · next hlocate => rw [hlocate]

/-- Whether a path gets to the file system: its names have bytes, and none of these is zero. -/
def IsAddress (p : Path) : Prop :=
  ∀ name ∈ p.names, FileName.isUsable name = true ∧ name.contains '\x00' = false

theorem isAddress_iff {p : Path} :
    IsAddress p ↔
      p.names.all FileName.isUsable = true ∧ ¬p.names.any (·.contains '\x00') = true := by
  rw [IsAddress, List.all_eq_true, List.any_eq_true, not_exists]
  constructor
  · intro h
    exact ⟨fun name hname => (h name hname).1,
      fun name ⟨hname, hzero⟩ => Bool.false_ne_true ((h name hname).2.symm.trans hzero)⟩
  · rintro ⟨husable, hzero⟩ name hname
    exact ⟨husable name hname, Bool.eq_false_iff.mpr fun h => hzero name ⟨hname, h⟩⟩

theorem isAddress_of_locate {p : Path} {found : Location × Option Node}
    (h : t.locate p = .ok found) : IsAddress p := by
  obtain ⟨⟨husable, hzero, -⟩, -⟩ := locate_eq_ok_iff.mp h
  exact isAddress_iff.mpr ⟨husable, hzero⟩

theorem isOfSystem_of_follow {l : Location} {names : List String} {fault : FileFault}
    (h : t.follow l names = .error fault) : fault.isOfSystem = true := by
  induction names generalizing l with
  | nil => cases h
  | cons name rest ih =>
    rw [follow] at h
    split at h
    · cases h
      rfl
    · cases h
      rfl
    · split at h
      · exact ih h
      · split at h
        · cases h
          rfl
        · exact ih h

/-- Looking up a path fails in the file system, or because it does not get there. -/
theorem isOfSystem_iff_of_locate {p : Path} {fault : FileFault} (h : t.locate p = .error fault) :
    fault.isOfSystem = true ↔ IsAddress p := by
  rw [isAddress_iff]
  unfold locate at h
  split at h
  · next husable =>
    cases h
    rw [Bool.not_eq_true', Bool.eq_false_iff] at husable
    exact iff_of_false Bool.false_ne_true fun hboth => husable hboth.1
  · next husable =>
    rw [Bool.not_eq_true', Bool.eq_false_iff, not_not] at husable
    split at h
    · next hzero =>
      cases h
      exact iff_of_false Bool.false_ne_true fun hboth => hboth.2 hzero
    · next hzero =>
      refine iff_of_true ?_ ⟨husable, hzero⟩
      split at h
      · cases h
        rfl
      · cases hfollow : t.follow (t.start p) (p.names.map FileName.readBack) with
        | error fault' =>
          rw [hfollow] at h
          cases h
          exact isOfSystem_of_follow hfollow
        | ok l =>
          rw [hfollow] at h
          cases h

theorem isOfSystem_iff_of_read {p : Path} {e : FileError} (h : t.read p = .error e) :
    e.fault.isOfSystem = true ↔ IsAddress p := by
  unfold read at h
  split at h
  · next hlocate =>
    cases h
    exact isOfSystem_iff_of_locate hlocate
  · next hlocate =>
    cases h
    exact iff_of_true rfl (isAddress_of_locate hlocate)
  · next hlocate =>
    cases h
    exact iff_of_true rfl (isAddress_of_locate hlocate)
  · cases h

theorem isAddress_of_read {p : Path} {bytes : List UInt8} (h : t.read p = .ok bytes) :
    IsAddress p := by
  unfold read at h
  split at h
  · cases h
  · cases h
  · cases h
  · next hlocate => exact isAddress_of_locate hlocate

/-! ## Names in the working directory -/

/-- A name that the files tell as it is written, and that stands for one of them. -/
structure IsSimple (name : String) : Prop where
  usable : FileName.isUsable name = true
  readBack_eq : FileName.readBack name = name
  ne_dots : name ≠ ".."
  zero_notMem : '\x00' ∉ name.toList
  short : FileName.byteSize name ≤ maxNameBytes

theorem isSimple_iff {name : String} :
    IsSimple name ↔ FileName.isUsable name = true ∧ FileName.readBack name = name ∧
      name ≠ ".." ∧ '\x00' ∉ name.toList ∧ FileName.byteSize name ≤ maxNameBytes :=
  ⟨fun h => ⟨h.usable, h.readBack_eq, h.ne_dots, h.zero_notMem, h.short⟩,
    fun ⟨husable, hback, hdots, hzero, hshort⟩ => ⟨husable, hback, hdots, hzero, hshort⟩⟩

instance (name : String) : Decidable (IsSimple name) :=
  decidable_of_iff _ isSimple_iff.symm

section Working

variable {name : String} (hworking : t.find? t.working = some .directory)

include hworking

theorem locate_working : t.locate ⟨.working, []⟩ = .ok (t.working, some .directory) :=
  locate_eq_ok_iff.mpr ⟨⟨rfl, by decide +kernel, by decide +kernel⟩, rfl, hworking⟩

/-- Such a name leads to its place in the working directory. -/
theorem locate_name (h : IsSimple name) :
    t.locate ⟨.working, [name]⟩ =
      .ok (t.working.child name, t.find? (t.working.child name)) := by
  refine locate_eq_ok_iff.mpr ⟨⟨?_, ?_, ?_⟩, ?_, rfl⟩
  · simpa using h.usable
  · simpa using h.zero_notMem
  · exact Nat.not_lt.mpr (Nat.le_trans h.short (by decide))
  · rw [List.map_singleton, h.readBack_eq]
    exact follow_cons_eq_ok_iff.mpr ⟨hworking, .inr ⟨h.ne_dots, h.short, rfl⟩⟩

theorem read_of_find? {bytes : List UInt8} (h : IsSimple name)
    (hfile : t.find? (t.working.child name) = some (.file bytes)) :
    t.read ⟨.working, [name]⟩ = .ok bytes := by
  rw [read, locate_name hworking h, hfile]

end Working

theorem find?_empty (home : String) :
    (empty home).find? (empty home).working = some .directory := by
  have hroot : (empty home).working ≠ .root := Location.child_ne_parent .root home
  rw [find?, if_neg hroot]
  exact List.lookup_cons_self

/-- In an empty directory every place is free. -/
theorem locate_empty (home : String) {name : String} (h : IsSimple name) :
    (empty home).locate ⟨.working, [name]⟩ = .ok ((empty home).working.child name, none) := by
  have hfree : (empty home).find? ((empty home).working.child name) = none := by
    have hworking : (empty home).working.child name ≠ (empty home).working := by
      intro he
      exact absurd (congrArg Location.depth he) (Nat.succ_ne_self _)
    have hroot : (empty home).working.child name ≠ .root := by
      intro he
      exact absurd (congrArg Location.depth he) (Nat.succ_ne_zero _)
    rw [find?, if_neg hroot]
    show List.lookup _ [((empty home).working, Node.directory)] = none
    rw [List.lookup_cons, beq_eq_false_iff_ne.mpr hworking]
    rfl
  rw [locate_name (find?_empty home) h, hfree]

/-! ## Actions -/

theorem exists_locate_of_write {p : Path} {bytes : List UInt8} (h : t.write p bytes = .ok t') :
    ∃ l node?, t.locate p = .ok (l, node?) ∧ node? ≠ some .directory ∧
      t' = t.put l (.file bytes) := by
  unfold write at h
  split at h
  · cases h
  · cases h
  · next l node? hnode hl =>
    exact ⟨l, node?, hl, hnode, (Except.ok.inj h).symm⟩

theorem write_of_locate {p : Path} {l : Location} {node? : Option Node}
    (h : t.locate p = .ok (l, node?)) (hnode : node? ≠ some .directory) (bytes : List UInt8) :
    t.write p bytes = .ok (t.put l (.file bytes)) := by
  rw [write, h]
  rcases node? with _ | _ | old
  · rfl
  · exact absurd rfl hnode
  · rfl

/-- A file that was written is found, and all paths lead where they led. -/
theorem of_write {p : Path} {bytes : List UInt8} (h : t.write p bytes = .ok t') :
    ∃ l node?, t.locate p = .ok (l, node?) ∧ Ways t t' ∧
      ∀ m, t'.find? m = if m = l then some (.file bytes) else t.find? m := by
  obtain ⟨l, node?, hl, hnode, rfl⟩ := exists_locate_of_write h
  obtain ⟨-, -, rfl⟩ := locate_eq_ok_iff.mp hl
  exact ⟨l, _, hl, ways_put hnode bytes, find?_put (ne_root_of_find? hnode) _⟩

theorem addsDirectories_makeLast (p : Path) {l : Location} {names : List String}
    {error? : Option FileError} (h : t.makeLast p l names = (t', error?)) :
    AddsDirectories t t' := by
  induction names generalizing t l with
  | nil =>
    cases h
    exact .refl _
  | cons name rest ih =>
    rw [makeLast] at h
    split at h
    · exact ih h
    · split at h
      · cases h
        exact .refl _
      · split at h
        · exact ih h
        · cases h
          exact .refl _
        · next hnone => exact (addsDirectories_put hnone).trans (ih h)

theorem addsDirectories_makeOne {p : Path} (h : t.makeOne p = .ok t') :
    AddsDirectories t t' := by
  unfold makeOne at h
  split at h
  · cases h
  · cases h
  · next l hl =>
    cases h
    exact addsDirectories_put (locate_eq_ok_iff.mp hl).2.2

theorem makeDirectory_of_locate (m : Machine) {p : Path} {l : Location}
    (h : t.locate p = .ok (l, some .directory)) : t.makeDirectory m p = (t, none) := by
  have hone : t.makeOne p = .error ⟨.alreadyThere, p.text⟩ := by
    rw [makeOne, h]
  have hdirectory : t.isDirectory p = true := by
    rw [isDirectory, h]
  rw [makeDirectory, hone]
  simp only [settle, hdirectory, if_true]

theorem makeDirectory_of_free {t : Tree} {p : Path} {l : Location} (m : Machine)
    (h : t.locate p = .ok (l, none)) : t.makeDirectory m p = (t.put l .directory, none) := by
  rw [makeDirectory, makeOne, h]
  rfl

/-- Making a directory changes nothing that is there, whether or not it succeeds. -/
theorem addsDirectories_makeDirectory {m : Machine} {p : Path} {error? : Option FileError}
    (h : t.makeDirectory m p = (t', error?)) : AddsDirectories t t' := by
  unfold makeDirectory at h
  split at h
  · next path _ =>
    simp only at h
    split at h
    · cases h
      exact .refl _
    · exact addsDirectories_makeLast p h
  · next attempt _ =>
    unfold settle at h
    split at h
    · next made hmade =>
      cases h
      exact addsDirectories_makeOne hmade
    · split at h
      · cases h
        exact .refl _
      · cases h
        exact .refl _

/-! ## Two files -/

/-- A file is still there after another one was written beside it, under a name that is told
apart from its own. -/
theorem locate_write_write {t₁ t₂ t₃ t₄ : Tree} {p q : Path} {contents contents' : List UInt8}
    {init : List String} {a b : String} (hwrite : t₁.write p contents = .ok t₂)
    (hkeeps : Keeps t₂ t₃) (hwrite' : t₃.write q contents' = .ok t₄) (hroot : q.root = p.root)
    (hp : p.names = init ++ [a]) (hq : q.names = init ++ [b])
    (hdots : FileName.readBack b ≠ "..") (hne : FileName.readBack a ≠ FileName.readBack b) :
    ∃ l l', t₄.locate p = .ok (l, some (.file contents)) ∧ l' ≠ l ∧
      t₄.locate q = .ok (l', some (.file contents')) := by
  obtain ⟨l, node?, hl, hways, hfind⟩ := of_write hwrite
  obtain ⟨l', node'?, hl', hways', hfind'⟩ := of_write hwrite'
  have hapart : l ≠ l' := locate_ne (hways.trans hkeeps.ways) hroot hp hq hl hl' hdots hne
  have hfirst : t₄.find? l = some (.file contents) := by
    rw [hfind', if_neg hapart]
    refine hkeeps.find? l _ ?_
    rw [hfind, if_pos rfl]
  have hsecond : t₄.find? l' = some (.file contents') := by
    rw [hfind', if_pos rfl]
  refine ⟨l, l', ?_, hapart.symm, ?_⟩
  · rw [((hways.trans hkeeps.ways).trans hways').locate hl, hfirst]
  · rw [hways'.locate hl', hsecond]

end Tree
end VoxelCurve
