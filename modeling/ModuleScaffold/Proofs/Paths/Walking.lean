import ModuleScaffold.Files.Walk
import ModuleScaffold.Proofs.Paths.Joining

/-!
# The order in which a directory is walked

A directory is walked entry by entry in the order of the names, and what is below an entry comes in
the place of that entry. So two files are met in the order of the first names in which the ways to
them differ, and that is the order of their paths – compared name by name, not character by
character: the files below `a` come before `a.json`, although a slash comes after a point.

Main statements:

* `ModuleScaffold.Entry.mem_walk` – **the walk meets exactly the files of the tree**, each under the
  names that lead to it;
* `ModuleScaffold.Entry.pairwise_walk` – **the walk meets them in the ascending order of their
  paths**, and so each of them once.
-/

namespace ModuleScaffold

namespace Path

variable {a b : List Component} {names : List String} {path : Path}

/-! ### The order of paths -/

theorem Component.before_self (c : Component) : c.before c = false := by
  cases c <;> simp [before]

/-- A common start does not matter for the order. -/
theorem componentsBefore_append (common : List Component) :
    componentsBefore (common ++ a) (common ++ b) = componentsBefore a b := by
  induction common with
  | nil => rfl
  | cons c common ih =>
    rw [List.cons_append, List.cons_append, componentsBefore, Component.before_self, ih]
    simp

/-- The first names that differ decide. -/
theorem componentsBefore_name {s t : String} (h : s < t) :
    componentsBefore (.name s :: a) (.name t :: b) = true := by
  rw [componentsBefore, Component.before, decide_eq_true h, Bool.true_or]

/-! ### Names in a directory -/

/-- A name that an entry of a directory may have. -/
structure IsEntryName (name : String) : Prop where
  /-- There is a character. -/
  ne_empty : name ≠ ""
  /-- None is a slash. -/
  solid : '/' ∉ name.toList
  /-- It is not the mark of the directory itself. -/
  ne_point : name ≠ "."
  /-- It is not the mark of the directory above. -/
  ne_points : name ≠ ".."

instance (name : String) : Decidable (IsEntryName name) :=
  decidable_of_iff (name ≠ "" ∧ '/' ∉ name.toList ∧ name ≠ "." ∧ name ≠ "..")
    ⟨fun ⟨hempty, hsolid, hpoint, hpoints⟩ => ⟨hempty, hsolid, hpoint, hpoints⟩,
      fun h => ⟨h.ne_empty, h.solid, h.ne_point, h.ne_points⟩⟩

/-- The path to which names lead from another one. -/
def below (path : Path) (names : List String) : Path :=
  names.foldl join path

theorem components_join_entry {name : String} (h : IsEntryName name) :
    (path.join name).components = path.components ++ [.name name] := by
  have hrelative : name.toList.head? ≠ some '/' := fun hc => h.solid (List.mem_of_mem_head? hc)
  have hinner : inner name.toList = [.name (String.ofList name.toList)] :=
    inner_piece h.solid (fun hnil => h.ne_empty (String.toList_inj.1 hnil))
      (fun hpoint => h.ne_point (String.toList_inj.1 hpoint))
      fun hpoints => h.ne_points (String.toList_inj.1 hpoints)
  rw [components_join hrelative fun _ => ?_, hinner, String.ofList_toList]
  -- the only piece of the name is the name
  have hfields : Text.fields (· == '/') name.toList = [name.toList] :=
    Text.fields_of_forall fun c hc => by
      rw [beq_eq_false_iff_ne]
      exact fun hslash => h.solid (hslash ▸ hc)
  rw [hfields, List.head?_cons, ne_eq, Option.some.injEq]
  exact fun hpoint => h.ne_point (String.toList_inj.1 hpoint)

/-- **Names add components.** -/
theorem components_below (h : ∀ name ∈ names, IsEntryName name) :
    (path.below names).components = path.components ++ names.map .name := by
  induction names generalizing path with
  | nil => rw [List.map_nil, List.append_nil]; rfl
  | cons name names ih =>
    obtain ⟨hname, hnames⟩ := List.forall_mem_cons.1 h
    have hstep : path.below (name :: names) = (path.join name).below names := rfl
    rw [hstep, ih hnames, components_join_entry hname, List.append_assoc]
    rfl

end Path

namespace Entry

variable {tree : Entry} {entries : List (String × Entry)} {path : Path} {found : Found}

/-! ### Trees of directories -/

/-- The entries of every directory have different names, and names that they may have. -/
inductive IsTree : Entry → Prop
  /-- A file. -/
  | file (octets : Octets) : IsTree (file octets)
  /-- A directory. -/
  | directory {entries : List (String × Entry)} : (entries.map Prod.fst).Nodup →
      (∀ e ∈ entries, Path.IsEntryName e.1) → (∀ e ∈ entries, IsTree e.2) →
      IsTree (directory entries)

/-- The tree holds a file to which the names lead. -/
inductive Holds : Entry → List String → Octets → Prop
  /-- The file itself. -/
  | here (octets : Octets) : Holds (file octets) [] octets
  /-- A file inside an entry of a directory. -/
  | inside {entries : List (String × Entry)} {name : String} {entry : Entry} {names : List String}
      {octets : Octets} : (name, entry) ∈ entries → Holds entry names octets →
      Holds (directory entries) (name :: names) octets

theorem holds_file_iff {octets octets' : Octets} {names : List String} :
    Holds (file octets) names octets' ↔ names = [] ∧ octets' = octets := by
  constructor
  · rintro ⟨⟩
    exact ⟨rfl, rfl⟩
  · rintro ⟨rfl, rfl⟩
    exact .here _

theorem holds_directory_iff {names : List String} {octets : Octets} :
    Holds (directory entries) names octets ↔
      ∃ e ∈ entries, ∃ rest, names = e.1 :: rest ∧ Holds e.2 rest octets := by
  constructor
  · rintro (_ | ⟨hmem, hbelow⟩)
    exact ⟨_, hmem, _, rfl, hbelow⟩
  · rintro ⟨e, hmem, rest, rfl, hbelow⟩
    exact .inside hmem hbelow

/-- The names in a tree may be names of entries. -/
theorem Holds.isEntryName {names : List String} {octets : Octets} (h : Holds tree names octets)
    (htree : IsTree tree) : ∀ name ∈ names, Path.IsEntryName name := by
  induction h with
  | here => exact fun name hname => absurd hname List.not_mem_nil
  | inside hmem _ ih =>
    obtain _ | ⟨-, hnames, htrees⟩ := htree
    exact List.forall_mem_cons.2 ⟨hnames _ hmem, ih (htrees _ hmem)⟩

/-! ### The walk, entry by entry -/

theorem sortedAll_eq_map (entries : List (String × Entry)) :
    sortedAll entries = entries.map fun e => (e.1, e.2.sorted) := by
  induction entries with
  | nil => rfl
  | cons e entries ih => rw [sortedAll, ih, List.map_cons]

theorem filesAmong_eq_flatMap (path : Path) (entries : List (String × Entry)) :
    filesAmong path entries = entries.flatMap fun e => e.2.filesBelow (path.join e.1) := by
  induction entries with
  | nil => rfl
  | cons e entries ih => rw [filesAmong, ih, List.flatMap_cons]

theorem byName_map (entries : List (String × Entry)) :
    byName (entries.map fun e => (e.1, e.2.sorted)) =
      (byName entries).map fun e => (e.1, e.2.sorted) :=
  (List.map_mergeSort (f := fun e : String × Entry => (e.1, e.2.sorted)) fun _ _ _ _ => rfl).symm

theorem perm_byName (entries : List (String × Entry)) : (byName entries).Perm entries :=
  List.mergeSort_perm _ _

/-- Entries with different names come in the ascending order of the names. -/
theorem pairwise_byName (h : (entries.map Prod.fst).Nodup) :
    (byName entries).Pairwise fun a b => a.1 < b.1 := by
  have hle : (byName entries).Pairwise fun a b => a.1 ≤ b.1 := by
    refine (List.pairwise_mergeSort (fun a b c hab hbc => ?_) (fun a b => ?_) entries).imp ?_
    · exact decide_eq_true (String.le_trans (of_decide_eq_true hab) (of_decide_eq_true hbc))
    · simpa using String.le_total a.1 b.1
    · exact of_decide_eq_true
  have hne : (byName entries).Pairwise fun a b => a.1 ≠ b.1 :=
    List.pairwise_map.1 (((perm_byName entries).map Prod.fst).nodup_iff.2 h)
  refine hle.imp₂ (fun a b hab hne => ?_) hne
  exact String.not_le.1 fun hba => hne (String.le_antisymm hab hba)

theorem walk_file (path : Path) (octets : Octets) :
    (file octets).walk path = [⟨path, octets⟩] := by
  rw [walk, sorted, filesBelow]

/-- **A directory is walked entry by entry.** -/
theorem walk_directory (path : Path) (entries : List (String × Entry)) :
    (directory entries).walk path =
      (byName entries).flatMap fun e => e.2.walk (path.join e.1) := by
  rw [walk, sorted, filesBelow, sortedAll_eq_map, byName_map, filesAmong_eq_flatMap,
    List.flatMap_map]
  rfl

/-! ### What is met, and in which order -/

/-- **The walk meets exactly the files of the tree.** -/
theorem mem_walk (h : IsTree tree) : found ∈ tree.walk path ↔
    ∃ names, Holds tree names found.octets ∧ found.path = path.below names := by
  induction h generalizing path with
  | file octets =>
    rw [walk_file, List.mem_singleton]
    simp only [holds_file_iff]
    constructor
    · rintro rfl
      exact ⟨[], ⟨rfl, rfl⟩, rfl⟩
    · rintro ⟨_, ⟨rfl, hoctets⟩, hpath⟩
      cases found
      cases hoctets
      cases hpath
      rfl
  | @directory entries _ _ _ ih =>
    rw [walk_directory, List.mem_flatMap]
    simp only [holds_directory_iff, (perm_byName entries).mem_iff]
    constructor
    · rintro ⟨e, he, hfound⟩
      obtain ⟨names, hholds, hpath⟩ := (ih e he).1 hfound
      exact ⟨e.1 :: names, ⟨e, he, names, rfl, hholds⟩, hpath⟩
    · rintro ⟨_, ⟨e, he, names, rfl, hholds⟩, hpath⟩
      exact ⟨e, he, (ih e he).2 ⟨names, hholds, hpath⟩⟩

/-- The files below an entry have its name behind the path of the directory. -/
theorem exists_components_of_mem_walk {name : String} (hname : Path.IsEntryName name)
    (h : IsTree tree) (hfound : found ∈ tree.walk (path.join name)) :
    ∃ rest, found.path.components = path.components ++ .name name :: rest := by
  obtain ⟨names, hholds, hpath⟩ := (mem_walk h).1 hfound
  refine ⟨names.map .name, ?_⟩
  rw [hpath, Path.components_below (hholds.isEntryName h), Path.components_join_entry hname,
    List.append_assoc]
  rfl

/-- **The walk meets the files in the ascending order of their paths.** -/
theorem pairwise_walk (h : IsTree tree) (path : Path) :
    (tree.walk path).Pairwise fun a b => a.path.before b.path = true := by
  induction h generalizing path with
  | file octets =>
    rw [walk_file]
    exact List.pairwise_singleton _ _
  | @directory entries hnodup hnames htrees ih =>
    have hmem : ∀ e ∈ byName entries, e ∈ entries := fun e he => (perm_byName entries).mem_iff.1 he
    rw [walk_directory, List.pairwise_flatMap]
    refine ⟨fun e he => ih e (hmem e he) _, ?_⟩
    refine (pairwise_byName hnodup).imp_of_mem fun {a b} ha hb hlt f hf g hg => ?_
    obtain ⟨as, hfirst⟩ := exists_components_of_mem_walk (hnames a (hmem a ha))
      (htrees a (hmem a ha)) hf
    obtain ⟨bs, hsecond⟩ := exists_components_of_mem_walk (hnames b (hmem b hb))
      (htrees b (hmem b hb)) hg
    rw [Path.before, hfirst, hsecond, Path.componentsBefore_append]
    exact Path.componentsBefore_name hlt

end Entry

end ModuleScaffold
