import ModuleScaffold.Declarations
import ModuleScaffold.Proofs.Merge.Ascending
import ModuleScaffold.Proofs.Modules.Inside
import ModuleScaffold.Proofs.Paths.Leading

/-!
# What imports lead to

An import gets a file without its extension, or the index of a directory. The words of the paths
must do nothing but name directories for that (`ModuleScaffold.Path.Ordinary`): all components of
the paths are then names, and what is made for two places leads from one to the other. Here are the
ways to see where a specifier leads, and the files of a module that others import.

Main statements:

* `ModuleScaffold.Path.leadsTo_importPath` – **a specifier that is made for a target leads to the
  file that its import gets**;
* `ModuleScaffold.Template.provides_definition` and the like – **what the imports of the generated
  files get**.
-/

namespace ModuleScaffold

open Schema

/-! ### Ordinary words -/

namespace Path

variable {path origin target : Path} {cs ds : List Component}

/-- The pieces of a text between its slashes name directories: none is the current directory, none
begins as the directory above is written, and there are no quotes and backslashes in them. -/
def Ordinary (text : String) : Prop :=
  ∀ piece ∈ Text.fields (· == '/') text.toList,
    piece ≠ ['.'] ∧ ¬['.', '.'] <+: piece ∧ '"' ∉ piece ∧ '\\' ∉ piece

instance : DecidablePred Ordinary :=
  fun _ => inferInstanceAs (Decidable (∀ _ ∈ _, _))

/-- The components are names that can be written in a specifier as they are. -/
def Tame (components : List Component) : Prop :=
  ∀ c ∈ components, ∃ text, c = .name text ∧ ¬['.', '.'] <+: text.toList ∧ '"' ∉ text.toList

theorem Tame.named (h : Tame cs) : Named cs := fun c hc =>
  let ⟨text, htext, _⟩ := h c hc
  ⟨text, htext⟩

theorem Tame.append (h : Tame cs) (h' : Tame ds) : Tame (cs ++ ds) := fun c hc =>
  (List.mem_append.1 hc).elim (h c) (h' c)

theorem Tame.dropLast (h : Tame cs) : Tame cs.dropLast := fun c hc =>
  h c (List.dropLast_subset _ hc)

theorem tame_singleton (text : String) (h : ¬['.', '.'] <+: text.toList)
    (hquote : '"' ∉ text.toList) : Tame [.name text] :=
  List.forall_mem_singleton.2 ⟨text, rfl, h, hquote⟩

theorem tame_inner {text : List Char} (h : ∀ piece ∈ Text.fields (· == '/') text,
    ¬['.', '.'] <+: piece ∧ '"' ∉ piece) : Tame (inner text) := by
  intro c hc
  obtain ⟨piece, hpiece, hdenotes⟩ := List.mem_filterMap.1 hc
  obtain ⟨hup, hquote⟩ := h piece hpiece
  rw [innerComponent] at hdenotes
  split at hdenotes
  · cases hdenotes
  · split at hdenotes
    · next heq => exact absurd (heq ▸ List.prefix_refl _) hup
    · cases hdenotes
      exact ⟨_, rfl, by rwa [String.toList_ofList], by rwa [String.toList_ofList]⟩

theorem Ordinary.tame {text : String} (h : Ordinary text) : Tame (inner text.toList) :=
  tame_inner fun piece hpiece => ⟨(h piece hpiece).2.1, (h piece hpiece).2.2.1⟩

/-- A relative path of ordinary pieces names directories. -/
theorem tame_components (hrelative : path.text.toList.head? ≠ some '/') (h : Ordinary path.text) :
    Tame path.components := by
  have hcurrent : (Text.fields (· == '/') path.text.toList).head? ≠ some ['.'] :=
    fun hpoint => (h _ (List.mem_of_mem_head? hpoint)).1 rfl
  rw [components_of_relative rfl hrelative hcurrent]
  exact h.tame

/-- There are no quotes in a specifier between tame places. -/
theorem quote_notMem_importPath (horigin : Tame origin.components)
    (htarget : Tame target.components) : '"' ∉ (importPath origin target).toList := by
  obtain ⟨steps, hsteps, hfrom, -⟩ := exists_steps horigin.named htarget.named
  have hjoined : '"' ∉ Text.joinWith ['/'] (steps.filterMap stepText) := by
    intro hmem
    obtain ⟨piece, hpiece, hquote⟩ := (Text.mem_joinWith hmem).resolve_left (by decide)
    obtain ⟨step, hstep, htext⟩ := List.mem_filterMap.1 hpiece
    rcases hfrom step hstep with rfl | hmem
    · cases htext
      exact absurd hquote (by decide)
    · obtain ⟨text, rfl, -, hplain⟩ := htarget step hmem
      cases htext
      exact hplain hquote
  rw [importPath, hsteps, String.toList_ofList]
  split
  · exact hjoined
  · simp only [List.mem_cons, not_or]
    exact ⟨by decide, by decide, hjoined⟩

/-! ### What an import gets -/

/-- The file is what an import of the place gets: the place is that of the file without its
extension, or that of the directory of which it is the index. -/
def Provides (file : Path) (place : List Component) : Prop :=
  file.components = place ++ [.name "index.ts"] ∨
    ∃ directory stem extension, extension ∈ [".ts", ".tsx"] ∧
      file.components = directory ++ [.name (stem ++ extension)] ∧
        place = directory ++ [.name stem]

/-- The packages that generated files import. -/
def packages : List String :=
  ["@medusajs/framework/utils", "@medusajs/framework/http", "@medusajs/admin-sdk", "@medusajs/ui",
    "@medusajs/medusa/api/utils/validators", "@tanstack/react-query", "react-router-dom",
    "react-hook-form", "zod"]

/-- An import specifier of a file in the directory leads to one of the files, if it is relative, and
else to a package. -/
def LeadsTo (files : List Path) (directory : List Component) (specifier : String) : Prop :=
  (IsRelative specifier → ∃ file ∈ files, file.Provides (resolve directory specifier)) ∧
    (¬IsRelative specifier → specifier ∈ packages)

variable {files : List Path} {directory : List Component} {file : Path} {specifier : String}

theorem leadsTo_package (h : specifier ∈ packages) : LeadsTo files directory specifier := by
  have hbare : ∀ specifier ∈ packages, ¬IsRelative specifier := by decide
  exact ⟨fun hrelative => absurd hrelative (hbare specifier h), fun _ => h⟩

theorem leadsTo_generated (hrelative : IsRelative specifier) (hfile : file ∈ files)
    (h : file.Provides (resolve directory specifier)) : LeadsTo files directory specifier :=
  ⟨fun _ => ⟨file, hfile, h⟩, fun hbare => absurd hrelative hbare⟩

/-- A specifier that is made for a target leads to the file that its import gets. -/
theorem leadsTo_importPath (horigin : Tame origin.components) (htarget : Tame target.components)
    (hfile : file ∈ files) (h : file.Provides target.components) :
    LeadsTo files origin.components (importPath origin target) := by
  refine leadsTo_generated (isRelative_importPath horigin.named htarget.named ?_) hfile ?_
  · intro text htext
    obtain ⟨text', heq, hup, -⟩ := htarget _ htext
    cases heq
    exact hup
  · rwa [resolve_importPath horigin.named htarget.named]

/-- A further name behind a specifier leads into the place that it leads to. -/
theorem leadsTo_importPath_append (horigin : Tame origin.components)
    (htarget : Tame target.components) (name : String) (hname : inner name.toList = [.name name])
    (hfile : file ∈ files) (h : file.Provides (target.components ++ [.name name])) :
    LeadsTo files origin.components (importPath origin target ++ "/" ++ name) := by
  have htext : (importPath origin target ++ "/" ++ name).toList =
      (importPath origin target).toList ++ '/' :: name.toList := by
    rw [String.toList_append, String.toList_append, List.append_assoc]
    rfl
  refine leadsTo_generated ?_ hfile ?_
  · have hrelative : IsRelative (importPath origin target) := by
      refine isRelative_importPath horigin.named htarget.named fun text htext => ?_
      obtain ⟨text', heq, hup, -⟩ := htarget _ htext
      cases heq
      exact hup
    rw [IsRelative, htext, Text.fields_append_separator _ rfl, List.head?_append_of_ne_nil]
    · exact hrelative
    · exact Text.fields_ne_nil _ _
  · have hplace : resolve origin.components (importPath origin target) = target.components :=
      resolve_importPath horigin.named htarget.named
    rw [resolve] at hplace
    rwa [resolve, htext, inner_append_slash, follow_append, hplace, hname,
      follow_of_named (List.forall_mem_singleton.2 ⟨name, rfl⟩)]

/-- A specifier that names a file in the directory, or in one below it. -/
theorem leadsTo_beside (below : String) {names : List Component} (hnames : Named names)
    (hbelow : inner below.toList = names) (hfile : file ∈ files)
    (h : file.Provides (directory ++ names)) : LeadsTo files directory ("./" ++ below) := by
  have htext : ("./" ++ below).toList = ['.'] ++ '/' :: below.toList := by
    rw [String.toList_append]
    rfl
  refine leadsTo_generated ?_ hfile ?_
  · rw [IsRelative, htext, Text.fields_append_separator _ rfl]
    exact List.mem_cons_self
  · rw [resolve, htext, inner_append_slash, hbelow]
    exact (follow_of_named hnames).symm ▸ h

end Path

/-! ### Ordinary modules -/

namespace Schema

/-- The words of a module that stand in paths do nothing but name directories. -/
structure Module.Ordinary (m : Module) : Prop where
  /-- The name is not a path from the root. -/
  relative : m.name.toList.head? ≠ some '/'
  /-- The name is a path of ordinary pieces. -/
  name : Path.Ordinary m.name
  /-- So are the words of the routes. -/
  words : ∀ model ∈ m.models, ∀ word ∈ m.routeWords model, Path.Ordinary word

end Schema

/-- The paths of a project are relative, and they do nothing but name directories. -/
structure Project.Ordinary (project : Project) : Prop where
  /-- The source directory is relative. -/
  source_relative : project.layout.sourceDir.text.toList.head? ≠ some '/'
  /-- Its pieces are ordinary. -/
  source : Path.Ordinary project.layout.sourceDir.text
  /-- The middleware file is relative. -/
  middleware_relative : project.middleware.text.toList.head? ≠ some '/'
  /-- Its pieces are ordinary. -/
  middleware : Path.Ordinary project.middleware.text

namespace Template

open ModuleScaffold.Path

variable {layout : Layout} {m : Module} {model : Model}

/-! ### Directories -/

theorem tame_below (h : ∀ word ∈ m.routeWords model, Path.Ordinary word) :
    Tame (below m model) := by
  rw [Module.routeWords] at h
  rw [below, Module.subPath]
  have hjoin : ∀ {word other : String}, Tame (inner word.toList) → Path.Ordinary other →
      Tame (inner (word ++ "/" ++ other).toList) := by
    intro word other hword hother
    have htext : (word ++ "/" ++ other).toList = word.toList ++ '/' :: other.toList := by
      rw [String.toList_append, String.toList_append, List.append_assoc]
      rfl
    rw [htext, inner_append_slash]
    exact hword.append hother.tame
  split at h
  · next hparent =>
    rw [if_pos hparent]
    exact (h _ List.mem_cons_self).tame
  · next hparent =>
    rw [if_neg hparent]
    cases hmodel : model.parent with
    | some parent =>
      rw [hmodel] at h
      refine hjoin ?_ (h _ (List.mem_cons_of_mem _ List.mem_cons_self))
      rw [Parent.route, inner_trimMatches]
      exact (h _ List.mem_cons_self).tame
    | none =>
      rw [hmodel] at h
      exact hjoin (h _ List.mem_cons_self).tame (h _ (List.mem_cons_of_mem _ List.mem_cons_self))

/-- The source directory names directories. -/
theorem tame_moduleDir (hsource : Tame layout.sourceDir.components) (h : m.Ordinary) :
    Tame (layout.moduleDir m.name).components := by
  rw [components_moduleDir h.relative]
  exact hsource.append ((tame_singleton _ (by decide) (by decide)).append h.name.tame)

theorem tame_handlerDirectory (hsource : Tame layout.sourceDir.components)
    (h : ∀ word ∈ m.routeWords model, Path.Ordinary word) :
    Tame (handlerDirectory layout m model) := by
  rw [handlerDirectory, components_apiDir]
  exact (hsource.append (tame_singleton _ (by decide) (by decide))).append
    ((tame_singleton _ (by decide) (by decide)).append (tame_below h))

theorem tame_adminDir (hsource : Tame layout.sourceDir.components) :
    Tame layout.adminDir.components := by
  rw [components_adminDir]
  exact hsource.append (tame_singleton _ (by decide) (by decide))

theorem tame_sdkTarget (hsource : Tame layout.sourceDir.components) :
    Tame (sdkTarget layout).components := by
  rw [sdkTarget, components_join (by decide) fun _ => by decide]
  exact (tame_adminDir hsource).append ((tame_singleton "lib" (by decide)
    (by decide)).append (tame_singleton "sdk" (by decide) (by decide)))

/-! ### Files that are imported -/

/-- The places of the files that all modules share. -/
def projectPlaces (layout : Layout) : List Path :=
  [layout.apiDir.join "utils/unless-path.ts", layout.adminDir.join "lib/sdk.ts"]

theorem provides_moduleIndex :
    ((layout.moduleDir m.name).join "index.ts").Provides (layout.moduleDir m.name).components :=
  .inl (components_join_name (text_moduleDir_ne_empty layout m.name) (by decide) (by decide)
    (by decide) (by decide))

/-- A script is imported by its name. -/
theorem provides_script {path : Path} {directory : List Component} {stem : String}
    (h : path.components = directory ++ [.name (stem ++ ".ts")]) :
    path.Provides (directory ++ [.name stem]) :=
  .inr ⟨directory, stem, ".ts", List.mem_cons_self, h, rfl⟩

theorem provides_moduleService : ((layout.moduleDir m.name).join "service.ts").Provides
    ((layout.moduleDir m.name).components ++ [.name "service"]) :=
  provides_script (components_join_name (text_moduleDir_ne_empty layout m.name) (by decide)
    (by decide) (by decide) (by decide))

theorem provides_definition (hname : Text.isIdentifier model.name = true) :
    (((layout.moduleDir m.name).join "models").join
      (Text.Style.snake.apply model.name ++ ".ts")).Provides
        ((layout.moduleDir m.name).components ++ [.name "models"] ++
          [.name (Text.Style.snake.apply model.name)]) :=
  provides_script (components_definition (slash_notMem_of_isIdentifier hname))

theorem provides_validators : ((layout.routeDir (m.basePath model)).join "validators.ts").Provides
    (handlerDirectory layout m model ++ [.name "validators"]) :=
  provides_script (components_handler (by decide))

theorem provides_sdk :
    (layout.adminDir.join "lib/sdk.ts").Provides (sdkTarget layout).components := by
  have htarget : (sdkTarget layout).components =
      layout.adminDir.components ++ [.name "lib"] ++ [.name "sdk"] := by
    rw [sdkTarget, components_join (by decide) fun _ => by decide, List.append_assoc]
    rfl
  rw [htarget]
  refine provides_script ?_
  rw [components_join (by decide) fun _ => by decide, List.append_assoc]
  rfl

theorem provides_unlessPath : (layout.apiDir.join "utils/unless-path.ts").Provides
    (layout.apiDir.join Declarations.unlessPathFile).components := by
  have htarget : (layout.apiDir.join Declarations.unlessPathFile).components =
      layout.apiDir.components ++ [.name "utils"] ++ [.name "unless-path"] := by
    rw [Declarations.unlessPathFile, components_join (by decide) fun _ => by decide,
      List.append_assoc]
    rfl
  rw [htarget]
  refine provides_script ?_
  rw [components_join (by decide) fun _ => by decide, List.append_assoc]
  rfl

theorem mem_places_of_model (hmodel : model ∈ m.models) {path : Path}
    (h : path ∈ modelPlaces layout m model) : path ∈ places layout m :=
  List.mem_cons_of_mem _ (List.mem_cons_of_mem _ (List.mem_flatMap.2 ⟨model, hmodel, h⟩))

/-- The models that a model imports are defined in the module. -/
theorem exists_of_mem_relatedModels (h : m.Accepted) (hmodel : model ∈ m.models) {name : String}
    (hname : name ∈ relatedModels model) : ∃ related ∈ m.models, related.name = name := by
  have hset : ∀ (names set : List String),
      name ∈ names.foldl (fun set name => Text.insertName name set) set →
        name ∈ set ∨ name ∈ names := by
    intro names
    induction names with
    | nil => exact fun _ h => .inl h
    | cons n names ih =>
      intro set h
      rcases ih _ h with h | h
      · rcases Text.mem_insertName.1 h with rfl | h
        · exact .inr List.mem_cons_self
        · exact .inl h
      · exact .inr (List.mem_cons_of_mem _ h)
  have hmem := (List.mem_filter.1 ((hset _ _ hname).resolve_left List.not_mem_nil)).1
  obtain ⟨field, hfield, hrelation⟩ := List.mem_filterMap.1 hmem
  obtain ⟨relation, hfound, rfl⟩ := Option.map_eq_some_iff.1 hrelation
  exact (h.linked model hmodel).relations field hfield relation hfound

end Template

end ModuleScaffold
