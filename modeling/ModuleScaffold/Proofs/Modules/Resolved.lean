import ModuleScaffold.Proofs.Modules.Imports
import ModuleScaffold.Proofs.Modules.Targets
import ModuleScaffold.Proofs.Modules.Written

/-!
# Imports of generated files

Where a file lies and how others import it is said twice: the templates put together the paths of
their files, and they write specifiers into the files that import them, some fixed and some made for
the two places. Here the two are brought together: whoever follows an import of a generated file
gets to a package or to a file that is generated as well.

Main statement: `ModuleScaffold.Renderer.imports_lead` – **every import of a generated file, and of
the declarations of its module, leads to a package or to a generated file**.
-/

namespace ModuleScaffold

open Schema

namespace Renderer

open Template ModuleScaffold.Path

variable {renderer : Renderer} {m : Module} {model : Model} {files : List Path}
  {directory : List Component} {text : String}

/-- All files of a module and of its project are there, and the words of their paths are
ordinary. -/
structure Complete (renderer : Renderer) (m : Module) (files : List Path) : Prop where
  /-- The module is accepted. -/
  accepted : m.Accepted
  /-- Its words are ordinary. -/
  ordinary : m.Ordinary
  /-- The source directory is named. -/
  source : Tame renderer.layout.sourceDir.components
  /-- The helper for the names of files is the standard one. -/
  helpers : NamesFiles renderer.helpers
  /-- The files of the module are there. -/
  places : ∀ path ∈ Template.places renderer.layout m, path ∈ files
  /-- The files of the project are there. -/
  projectPlaces : ∀ path ∈ Template.projectPlaces renderer.layout, path ∈ files

theorem components_outputDir {t : Template} {path : Path} {file : String}
    (hpath : t.outputPath renderer.layout m (some model) = some path)
    (hcomponents : path.components = directory ++ [.name file]) :
    (renderer.outputDir t m model).components = directory := by
  obtain ⟨parent, hparent, hdirectory⟩ := exists_parent hcomponents
  rw [outputDir, hpath, Option.bind_some, hparent]
  exact hdirectory

namespace Complete

theorem quote_notMem_name (h : Complete renderer m files) : '"' ∉ m.name.toList := by
  intro hmem
  obtain ⟨piece, hpiece, hquote⟩ := Text.exists_mem_fields (p := (· == '/')) hmem rfl
  exact (h.ordinary.name piece hpiece).2.2.1 hquote

theorem isIdentifier_name (h : Complete renderer m files) (hmodel : model ∈ m.models) :
    Text.isIdentifier model.name = true :=
  (h.accepted.wellNamed model hmodel).name

/-- The name of the file of a model's definition is one piece. -/
theorem inner_snake (h : Complete renderer m files) (hmodel : model ∈ m.models) :
    inner (Text.Style.snake.apply model.name).toList =
      [.name (Text.Style.snake.apply model.name)] := by
  have hname := h.isIdentifier_name hmodel
  have hpoint : '.' ∉ (Text.Style.snake.apply model.name).toList :=
    Text.notMem_apply (by decide) (by decide) fun hmem =>
      absurd (Text.isWordPart_of_isIdentifierChars hname _ hmem) (by decide)
  have hfilled : Text.Style.snake.apply model.name ≠ "" := by
    refine Text.apply_snake_ne_empty ?_
    rintro hempty
    rw [hempty] at hname
    cases hname
  have hpiece := inner_piece
    (Text.notMem_apply (by decide) (by decide) (slash_notMem_of_isIdentifier hname))
    (fun hnil => hfilled (String.toList_inj.1 hnil))
    (fun hone => hpoint (hone ▸ List.mem_cons_self))
    fun htwo => hpoint (htwo ▸ List.mem_cons_self)
  rwa [String.ofList_toList] at hpiece

/-! ### The module -/

theorem leadsTo_service (h : Complete renderer m files) :
    LeadsTo files (renderer.layout.moduleDir m.name).components "./service" :=
  leadsTo_beside "service" (List.forall_mem_singleton.2 ⟨"service", rfl⟩) rfl
    (h.places _ List.mem_cons_self)
    provides_moduleService

theorem leadsTo_definition (h : Complete renderer m files) (hmodel : model ∈ m.models) :
    LeadsTo files (renderer.layout.moduleDir m.name).components
      ("./models/" ++ Text.Style.snake.apply model.name) := by
  have htext : ("models/" ++ Text.Style.snake.apply model.name).toList =
      "models".toList ++ '/' :: (Text.Style.snake.apply model.name).toList := by
    rw [String.toList_append]
    rfl
  have hbelow : inner ("models/" ++ Text.Style.snake.apply model.name).toList =
      [.name "models", .name (Text.Style.snake.apply model.name)] := by
    rw [htext, inner_append_slash, h.inner_snake hmodel]
    rfl
  have hnames : Named [.name "models", .name (Text.Style.snake.apply model.name)] :=
    List.forall_mem_cons.2 ⟨⟨_, rfl⟩, List.forall_mem_singleton.2 ⟨_, rfl⟩⟩
  have hfile := h.places _ (mem_places_of_model hmodel List.mem_cons_self)
  have hprovides : Provides _ ((renderer.layout.moduleDir m.name).components ++ _ ++ _) :=
    provides_definition (h.isIdentifier_name hmodel)
  rw [List.append_assoc] at hprovides
  have hleads := leadsTo_beside _ hnames hbelow hfile hprovides
  rwa [← String.append_assoc] at hleads

theorem leadsTo_related (h : Complete renderer m files) (hmodel : model ∈ m.models) :
    LeadsTo files ((renderer.layout.moduleDir m.name).components ++ [.name "models"])
      ("./" ++ Text.Style.snake.apply model.name) :=
  leadsTo_beside _ (List.forall_mem_singleton.2 ⟨_, rfl⟩) (h.inner_snake hmodel)
    (h.places _ (mem_places_of_model hmodel List.mem_cons_self))
    (provides_definition (h.isIdentifier_name hmodel))

/-! ### The handlers and the pages -/

theorem leadsTo_moduleImport (h : Complete renderer m files) {t : Template}
    (hdirectory : Tame (renderer.outputDir t m model).components) :
    LeadsTo files (renderer.outputDir t m model).components (renderer.moduleImport t m model) ∧
      LeadsTo files (renderer.outputDir t m model).components
        (renderer.moduleImport t m model ++ "/service") := by
  have hmodule := tame_moduleDir h.source h.ordinary
  have hservice := leadsTo_importPath_append hdirectory hmodule "service" rfl
    (h.places _ List.mem_cons_self) provides_moduleService
  rw [String.append_assoc] at hservice
  exact ⟨leadsTo_importPath hdirectory hmodule
    (h.places _ (List.mem_cons_of_mem _ List.mem_cons_self)) provides_moduleIndex, hservice⟩

theorem leadsTo_sdkImport (h : Complete renderer m files) {t : Template}
    (hdirectory : Tame (renderer.outputDir t m model).components) :
    LeadsTo files (renderer.outputDir t m model).components (renderer.sdkImport t m model) :=
  leadsTo_importPath hdirectory (tame_sdkTarget h.source)
    (h.projectPlaces _ (List.mem_cons_of_mem _ List.mem_cons_self)) provides_sdk

theorem quote_notMem_moduleImport (h : Complete renderer m files) {t : Template}
    (hdirectory : Tame (renderer.outputDir t m model).components) :
    '"' ∉ (renderer.moduleImport t m model).toList :=
  quote_notMem_importPath hdirectory (tame_moduleDir h.source h.ordinary)

theorem quote_notMem_sdkImport (h : Complete renderer m files) {t : Template}
    (hdirectory : Tame (renderer.outputDir t m model).components) :
    '"' ∉ (renderer.sdkImport t m model).toList :=
  quote_notMem_importPath hdirectory (tame_sdkTarget h.source)

/-! ### The imports of each file -/

/-- All imports of a file lead somewhere. -/
def Leading (files : List Path) (path : Path) (text : String) : Prop :=
  ∀ source ∈ importSources text, LeadsTo files path.components.dropLast source

theorem leading_moduleService (h : Complete renderer m files)
    (htext : moduleServiceText renderer.helpers m = .ok text) :
    Leading files ((renderer.layout.moduleDir m.name).join "service.ts") text := by
  rw [Leading, importSources_moduleService h.helpers (fun _ => h.isIdentifier_name) htext,
    components_join_name (text_moduleDir_ne_empty _ _) (by decide) (by decide) (by decide)
      (by decide), List.dropLast_concat, List.forall_mem_cons, modelImports, List.map_map,
    List.map_map]
  exact ⟨leadsTo_package (by decide), List.forall_mem_map.2 fun model => h.leadsTo_definition⟩

theorem leading_moduleIndex (h : Complete renderer m files)
    (htext : moduleIndexText renderer.helpers m = .ok text) :
    Leading files ((renderer.layout.moduleDir m.name).join "index.ts") text := by
  rw [Leading, importSources_moduleIndex h.helpers h.quote_notMem_name htext,
    components_join_name (text_moduleDir_ne_empty _ _) (by decide) (by decide) (by decide)
      (by decide), List.dropLast_concat, List.forall_mem_cons, List.forall_mem_singleton]
  exact ⟨leadsTo_package (by decide), h.leadsTo_service⟩

theorem leading_definition (h : Complete renderer m files) (hmodel : model ∈ m.models)
    (htext : Template.modelText renderer.helpers model = .ok text) :
    Leading files (((renderer.layout.moduleDir m.name).join "models").join
      (Text.Style.snake.apply model.name ++ ".ts")) text := by
  have hrelated : ∀ name ∈ relatedModels model, ∃ related ∈ m.models, related.name = name :=
    fun name => exists_of_mem_relatedModels h.accepted hmodel
  have hnames : ∀ name ∈ relatedModels model, Text.isIdentifier name = true := by
    intro name hname
    obtain ⟨related, hmem, rfl⟩ := hrelated name hname
    exact h.isIdentifier_name hmem
  rw [Leading, importSources_model h.helpers hnames htext,
    components_definition (slash_notMem_of_isIdentifier (h.isIdentifier_name hmodel)),
    Spot.components, List.dropLast_concat, List.forall_mem_cons, modelImports, List.map_map]
  refine ⟨leadsTo_package (by decide), List.forall_mem_map.2 fun name hname => ?_⟩
  obtain ⟨related, hmem, rfl⟩ := hrelated name hname
  exact h.leadsTo_related hmem

theorem leading_validators (path : Path) : Leading files path (validatorsText model) := by
  rw [Leading, importSources_validators, List.forall_mem_singleton]
  exact leadsTo_package (by decide)

/-- Handlers import the module, its service and the checks. -/
theorem leading_handler (h : Complete renderer m files) {t : Template} {path : Path}
    {file checks : String} (hpath : t.outputPath renderer.layout m (some model) = some path)
    (hcomponents : path.components = directory ++ [.name file]) (htame : Tame directory)
    (hsources : '"' ∉ (renderer.moduleImport t m model).toList → importSources text =
      ["@medusajs/framework/http", renderer.moduleImport t m model,
        renderer.moduleImport t m model ++ "/service", checks])
    (hchecks : LeadsTo files directory checks) : Leading files path text := by
  have hdirectory := components_outputDir hpath hcomponents
  rw [← hdirectory] at htame
  obtain ⟨hmodule, hservice⟩ := h.leadsTo_moduleImport htame
  rw [hdirectory] at hmodule hservice
  rw [Leading, hsources (h.quote_notMem_moduleImport htame), hcomponents, List.dropLast_concat]
  simp only [List.forall_mem_cons]
  exact ⟨leadsTo_package (by decide), hmodule, hservice, hchecks, nofun⟩

theorem validators_mem (h : Complete renderer m files) (hmodel : model ∈ m.models) :
    (renderer.layout.routeDir (m.basePath model)).join "validators.ts" ∈ files :=
  h.places _ (mem_places_of_model hmodel (List.mem_cons_of_mem _ List.mem_cons_self))

theorem leading_collection (h : Complete renderer m files) (hmodel : model ∈ m.models)
    (htext : collectionText renderer.helpers (renderer.moduleImport .routeCollection m model) m
      model = .ok text) :
    Leading files ((renderer.layout.routeDir (m.basePath model)).join "route.ts") text := by
  have hchecks := leadsTo_beside "validators" (List.forall_mem_singleton.2 ⟨_, rfl⟩) rfl
    (h.validators_mem hmodel)
    (@provides_validators renderer.layout m model)
  exact h.leading_handler (t := .routeCollection) rfl (components_handler (by decide))
    (tame_handlerDirectory h.source (h.ordinary.words model hmodel))
    (fun hmodule => importSources_collection h.quote_notMem_name (h.isIdentifier_name hmodel)
      hmodule htext) hchecks

theorem leading_item (h : Complete renderer m files) (hmodel : model ∈ m.models)
    (htext : itemText renderer.helpers (renderer.moduleImport .routeItem m model) m model =
      .ok text) :
    Leading files ((renderer.layout.routeDir (m.basePath model)).join "[id]/route.ts") text := by
  have hcomponents :
      ((renderer.layout.routeDir (m.basePath model)).join "[id]/route.ts").components =
        (handlerDirectory renderer.layout m model ++ [.name "[id]"]) ++ [.name "route.ts"] := by
    rw [components_handler (by decide), List.append_assoc]
    rfl
  have hplace : resolve (handlerDirectory renderer.layout m model ++ [.name "[id]"])
      "../validators" = handlerDirectory renderer.layout m model ++ [.name "validators"] := by
    change follow _ [.up, .name "validators"] = _
    rw [follow, above_append_name, follow_of_named (List.forall_mem_singleton.2 ⟨_, rfl⟩)]
  have hchecks : LeadsTo files (handlerDirectory renderer.layout m model ++ [.name "[id]"])
      "../validators" := leadsTo_generated (by decide) (h.validators_mem hmodel)
    (hplace ▸ provides_validators)
  exact h.leading_handler (t := .routeItem) rfl hcomponents
    ((tame_handlerDirectory h.source (h.ordinary.words model hmodel)).append
      (tame_singleton _ (by decide) (by decide)))
    (fun hmodule => importSources_item h.quote_notMem_name (h.isIdentifier_name hmodel)
      hmodule htext) hchecks

/-- Pages import packages and the client. -/
theorem leading_page (h : Complete renderer m files) {t : Template} {path : Path} {file : String}
    (known : List String) (hpath : t.outputPath renderer.layout m (some model) = some path)
    (hcomponents : path.components = directory ++ [.name file]) (htame : Tame directory)
    (hsources : '"' ∉ (renderer.sdkImport t m model).toList →
      importSources text = known ++ [renderer.sdkImport t m model])
    (hknown : ∀ source ∈ known, source ∈ packages) : Leading files path text := by
  have hdirectory := components_outputDir hpath hcomponents
  rw [← hdirectory] at htame
  have hsdk := h.leadsTo_sdkImport htame
  rw [hdirectory] at hsdk
  rw [Leading, hsources (h.quote_notMem_sdkImport htame), hcomponents, List.dropLast_concat,
    List.forall_mem_append, List.forall_mem_singleton]
  exact ⟨fun source hsource => leadsTo_package (hknown source hsource), hsdk⟩

theorem leading_listPage (h : Complete renderer m files) (hmodel : model ∈ m.models)
    (htext : listPageText renderer.helpers (renderer.sdkImport .listPage m model) m model =
      .ok text) :
    Leading files (((renderer.layout.adminDir.join "routes").join
      (pageRoute (m.basePath model))).join "page.tsx") text := by
  have hcomponents := @components_listPage renderer.layout m model
    (h.accepted.head?_subPath_ne_slash hmodel)
  exact h.leading_page (t := .listPage)
    ["@medusajs/admin-sdk", "@medusajs/ui", "@tanstack/react-query", "react-router-dom"] rfl
    hcomponents
    ((tame_adminDir h.source).append ((tame_singleton _ (by decide) (by decide)).append
      (tame_below (h.ordinary.words model hmodel))))
    (fun hsdk => importSources_listPage hsdk htext) (by decide)

/-- The directory of the forms of a model. -/
theorem tame_formDirectory (h : Complete renderer m files) (hmodel : model ∈ m.models) :
    Tame (renderer.layout.adminDir.components ++
      .name "components" :: inner (Text.Style.kebab.apply model.name).toList) := by
  have hmark : ∀ c, ¬Text.Arises c → c ≠ '-' → Text.isWordPart c = false →
      c ∉ (Text.Style.kebab.apply model.name).toList := by
    intro c harises hdash hpart
    refine Text.notMem_apply harises (fun hmem => hdash (List.mem_singleton.1 hmem)) fun hmem => ?_
    rw [Text.isWordPart_of_isIdentifierChars (h.isIdentifier_name hmodel) c hmem] at hpart
    cases hpart
  refine (tame_adminDir h.source).append ((tame_singleton _ (by decide) (by decide)).append
    (tame_inner fun piece hpiece => ⟨?_, fun hquote => ?_⟩))
  · rintro ⟨rest, rfl⟩
    exact hmark '.' (by decide) (by decide) (by decide)
      (Text.mem_of_mem_fields hpiece List.mem_cons_self)
  · exact hmark '"' (by decide) (by decide) (by decide) (Text.mem_of_mem_fields hpiece hquote)

theorem leading_createForm (h : Complete renderer m files) (hmodel : model ∈ m.models)
    (htext : createFormText renderer.helpers (renderer.sdkImport .createForm m model) m model =
      .ok text) : Leading files (formPath renderer.layout "create" model) text :=
  h.leading_page (t := .createForm) ["@medusajs/ui", "@tanstack/react-query", "react-hook-form"] rfl
    (components_form (by decide) (slash_notMem_of_isIdentifier (h.isIdentifier_name hmodel)))
    (h.tame_formDirectory hmodel)
    (fun hsdk => importSources_createForm hsdk htext) (by decide)

theorem leading_editForm (h : Complete renderer m files) (hmodel : model ∈ m.models)
    (htext : editFormText renderer.helpers (renderer.sdkImport .editForm m model) m model =
      .ok text) : Leading files (formPath renderer.layout "edit" model) text :=
  h.leading_page (t := .editForm) ["@medusajs/ui", "@tanstack/react-query", "react-hook-form"] rfl
    (components_form (by decide) (slash_notMem_of_isIdentifier (h.isIdentifier_name hmodel)))
    (h.tame_formDirectory hmodel)
    (fun hsdk => importSources_editForm hsdk htext) (by decide)

/-- A template for models is rendered for its text. -/
theorem modelText_of_render {t : Template} (ht : t ∈ ofScope .model)
    (htext : renderer.render t m (some model) = .ok text) :
    renderer.modelText t m model = .ok text := by
  have hmodel : renderer.text t m (some model) =
      (renderer.modelText t m model).mapError .unknownHelper := by
    cases t <;> first | rfl | exact absurd ht (by decide)
  rw [render, mapError_eq_ok_iff, hmodel, mapError_eq_ok_iff] at htext
  exact htext

/-- **The imports of every file of a model lead somewhere.** -/
theorem leading_of_model (h : Complete renderer m files) (hmodel : model ∈ m.models)
    {t : Template} (ht : t ∈ ofScope .model) {path : Path}
    (hpath : t.outputPath renderer.layout m (some model) = some path)
    (htext : renderer.render t m (some model) = .ok text) : Leading files path text := by
  have htext := modelText_of_render ht htext
  cases t with
  | model => exact Option.some.inj hpath ▸ h.leading_definition hmodel htext
  | validators => exact Except.ok.inj htext ▸ leading_validators path
  | routeCollection => exact Option.some.inj hpath ▸ h.leading_collection hmodel htext
  | routeItem => exact Option.some.inj hpath ▸ h.leading_item hmodel htext
  | listPage => exact Option.some.inj hpath ▸ h.leading_listPage hmodel htext
  | createForm => exact Option.some.inj hpath ▸ h.leading_createForm hmodel htext
  | editForm => exact Option.some.inj hpath ▸ h.leading_editForm hmodel htext
  | _ => exact absurd ht (by decide)

/-- **The imports of every file of the module itself lead somewhere.** -/
theorem leading_of_module (h : Complete renderer m files) {t : Template}
    (ht : t ∈ ofScope .module) {path : Path}
    (hpath : t.outputPath renderer.layout m none = some path)
    (htext : renderer.render t m none = .ok text) : Leading files path text := by
  rw [render, mapError_eq_ok_iff] at htext
  cases t with
  | moduleService =>
    cases hpath
    exact h.leading_moduleService (mapError_eq_ok_iff.1 htext)
  | moduleIndex =>
    cases hpath
    exact h.leading_moduleIndex (mapError_eq_ok_iff.1 htext)
  | _ => exact absurd ht (by decide)

/-- The files of a module and of its project are all there. -/
theorem of_render (haccepted : m.Accepted) (hordinary : m.Ordinary)
    (hsource : Tame renderer.layout.sourceDir.components) (hhelpers : NamesFiles renderer.helpers)
    {rendered shared : List File} (hrendered : renderer.renderModule m = .ok rendered)
    (hshared : renderer.renderProject m = .ok shared) :
    Complete renderer m ((rendered ++ shared).map File.path) where
  accepted := haccepted
  ordinary := hordinary
  source := hsource
  helpers := hhelpers
  places path hpath := by
    rw [List.map_append, paths_of_renderModule hrendered]
    exact List.mem_append_left _ hpath
  projectPlaces path hpath := by
    have hpaths : shared.map File.path = Template.projectPlaces renderer.layout :=
      paths_of_renderAll hshared
    rw [List.map_append, hpaths]
    exact List.mem_append_right _ hpath

/-! ### The declarations -/

/-- Adding names to an import adds no import but the one of that source. -/
theorem mem_imports_addImports {store : Store} {source : String} {names : List String}
    {i : Import} (hi : i ∈ (store.addImports source names).imports) :
    i ∈ store.imports ∨ i.source = source :=
  (Store.mem_updateImport hi).imp_right And.left

/-- The sources of what a model declares. -/
theorem source_of_mem_imports_declared {layout : Layout} {middlewareDir : Path} {i : Import}
    (hi : i ∈ (Declarations.declared layout middlewareDir m model).imports) :
    i.source = Declarations.unlessPathImport layout middlewareDir ∨
      i.source = Declarations.validatorsImport layout middlewareDir m model ∨
        i.source = Declarations.validatorsSource ∨ i.source = Declarations.httpSource := by
  have hbase : i ∈ (Declarations.addImports layout middlewareDir m model .empty).imports →
      i.source = Declarations.validatorsImport layout middlewareDir m model ∨
        i.source = Declarations.validatorsSource ∨ i.source = Declarations.httpSource := by
    intro hi
    rw [Declarations.addImports, Store.addImport] at hi
    refine (mem_imports_addImports hi).symm.imp_right fun hi => ?_
    refine (mem_imports_addImports hi).symm.imp_right fun hi => ?_
    exact (mem_imports_addImports hi).resolve_left List.not_mem_nil
  have hdefined : ∀ store : Store,
      (store.insertDefinition (Declarations.definition model)).imports = store.imports :=
    fun _ => rfl
  rw [Declarations.declared, Declarations.named] at hi
  dsimp only at hi
  split at hi
  · rw [Store.addImport] at hi
    refine (mem_imports_addImports hi).symm.imp_right fun hi => ?_
    rw [hdefined] at hi
    exact hbase hi
  · rw [hdefined] at hi
    exact .inr (hbase hi)

/-- Merged stores have no imports but those of their parts. -/
theorem exists_of_mem_overlayAll {added : List Store} {i : Import}
    (hi : i ∈ (Store.empty.overlayAll added).imports) :
    ∃ upper ∈ added, ∃ j ∈ upper.imports, j.source = i.source := by
  have hfold : ∀ (more held : List Import), i ∈ more.foldl Store.withImport held →
      i ∈ held ∨ ∃ j ∈ more, j.source = i.source := by
    intro more
    induction more with
    | nil => exact fun _ h => .inl h
    | cons j more ih =>
      intro held h
      rcases ih _ h with h | ⟨k, hk, hsource⟩
      · rcases Store.mem_updateImport h with h | ⟨hsource, -⟩
        · exact .inl h
        · exact .inr ⟨j, List.mem_cons_self, hsource.symm⟩
      · exact .inr ⟨k, List.mem_cons_of_mem _ hk, hsource⟩
  rw [Store.overlayAll_eq] at hi
  obtain ⟨j, hj, hsource⟩ := (hfold _ _ hi).resolve_left List.not_mem_nil
  obtain ⟨upper, hupper, hj⟩ := List.mem_flatMap.1 hj
  exact ⟨upper, hupper, j, hj, hsource⟩

theorem components_routeDir_validators :
    ((renderer.layout.routeDir (m.basePath model)).join "validators").components =
      handlerDirectory renderer.layout m model ++ [.name "validators"] :=
  components_handler (by decide)

/-- **The imports of what a module declares lead somewhere.** -/
theorem leading_of_declarations (h : Complete renderer m files) {middlewareDir : Path}
    (hdirectory : Tame middlewareDir.components) {store : Store}
    (hstore : Declarations.ofModule renderer.layout middlewareDir m = .ok store) :
    ∀ i ∈ store.imports, LeadsTo files middlewareDir.components i.source := by
  obtain ⟨-, rfl⟩ := Declarations.ofModule_eq_ok_iff.1 hstore
  intro i hi
  obtain ⟨upper, hupper, j, hj, hsource⟩ := exists_of_mem_overlayAll hi
  obtain ⟨model, hmodel, rfl⟩ := List.mem_map.1 hupper
  rw [← hsource]
  rcases source_of_mem_imports_declared hj with hsource | hsource | hsource | hsource <;>
    rw [hsource]
  · refine leadsTo_importPath hdirectory ?_ (h.projectPlaces _ List.mem_cons_self)
      provides_unlessPath
    rw [Declarations.unlessPathFile, components_join (by decide) fun _ => by decide,
      components_apiDir]
    exact (h.source.append (tame_singleton _ (by decide) (by decide))).append
      ((tame_singleton "utils" (by decide) (by decide)).append
        (tame_singleton "unless-path" (by decide) (by decide)))
  · refine leadsTo_importPath hdirectory ?_ (h.validators_mem hmodel) ?_
    · rw [components_routeDir_validators]
      exact (tame_handlerDirectory h.source (h.ordinary.words model hmodel)).append
        (tame_singleton _ (by decide) (by decide))
    · rw [components_routeDir_validators]
      exact provides_validators
  · exact leadsTo_package (by decide)
  · exact leadsTo_package (by decide)

end Complete

/-! ### The directory of the middleware file -/

theorem components_middlewareDir {project : Project} (h : Tame project.middleware.components) :
    project.middlewareDir.components = project.middleware.components.dropLast := by
  rw [Project.middlewareDir]
  cases hparent : project.middleware.parent with
  | some parent => exact components_of_parent hparent
  | none =>
    -- a path without a directory has no name in it
    have hnone : project.middleware.components = [] := by
      refine List.eq_nil_iff_forall_not_mem.2 fun c hc => ?_
      obtain ⟨text, rfl, -⟩ := h c hc
      cases components_of_parent_eq_none hparent _ hc
    rw [hnone]
    decide

/-- **Every import of a generated file, and of the declarations of its module, leads to a package or
to a generated file.** -/
theorem imports_lead (project : Project) {helpers : Helpers} (hhelpers : NamesFiles helpers)
    (hproject : project.Ordinary) (hcheck : m.check = .ok ()) (hmodule : m.Ordinary)
    {rendered shared : List File}
    (hrendered : (⟨helpers, project.layout⟩ : Renderer).renderModule m = .ok rendered)
    (hshared : (⟨helpers, project.layout⟩ : Renderer).renderProject m = .ok shared) :
    (∀ file ∈ rendered, ∀ source ∈ importSources file.text,
      LeadsTo ((rendered ++ shared).map File.path) file.path.components.dropLast source) ∧
    ∀ store, Declarations.ofModule project.layout project.middlewareDir m = .ok store →
      ∀ i ∈ store.imports, LeadsTo ((rendered ++ shared).map File.path)
        project.middleware.components.dropLast i.source := by
  have hcomplete : Complete ⟨helpers, project.layout⟩ m ((rendered ++ shared).map File.path) :=
    .of_render (Module.check_eq_ok_iff.1 hcheck) hmodule
      (tame_components hproject.source_relative hproject.source) hhelpers hrendered hshared
  refine ⟨fun file hfile => ?_, fun store hstore => ?_⟩
  · rcases exists_of_mem_renderModule hrendered hfile with
      ⟨t, ht, hpath, htext⟩ | ⟨model, hmodel, t, ht, hpath, htext⟩
    · exact hcomplete.leading_of_module ht hpath htext
    · exact hcomplete.leading_of_model hmodel ht hpath htext
  · have htame := tame_components hproject.middleware_relative hproject.middleware
    have hdirectory := components_middlewareDir htame
    rw [← hdirectory]
    exact hcomplete.leading_of_declarations (hdirectory ▸ htame.dropLast) hstore

/-- The models of a module below one another, and its declarations. -/
theorem imports_lead_partsModule : ∃ rendered shared store,
    (⟨.standard, {}⟩ : Renderer).renderModule (Declarations.partsModule "kits" "parts") =
      .ok rendered ∧
    (⟨.standard, {}⟩ : Renderer).renderProject (Declarations.partsModule "kits" "parts") =
      .ok shared ∧
    Declarations.ofModule {} (Project.middlewareDir {}) (Declarations.partsModule "kits" "parts") =
      .ok store ∧
    (∀ file ∈ rendered, ∀ source ∈ importSources file.text,
      LeadsTo ((rendered ++ shared).map File.path) file.path.components.dropLast source) ∧
    ∀ i ∈ store.imports, LeadsTo ((rendered ++ shared).map File.path)
      ({} : Project).middleware.components.dropLast i.source := by
  have hcheck : (Declarations.partsModule "kits" "parts").check = .ok () := by decide +kernel
  have hhelpers : NamesFiles .standard := rfl
  have hproject : ({} : Project).Ordinary := ⟨by decide, by decide, by decide, by decide⟩
  have hmodule : (Declarations.partsModule "kits" "parts").Ordinary :=
    ⟨by decide, by decide, by decide⟩
  have hscopes : ∀ t ∈ ofScope .project, t.scope ≠ .model := by decide
  obtain ⟨rendered, hrendered⟩ :=
    succeeds_renderModule {} (Declarations.partsModule "kits" "parts")
  obtain ⟨shared, hshared⟩ : Succeeds ((⟨.standard, {}⟩ : Renderer).renderProject
      (Declarations.partsModule "kits" "parts")) :=
    succeeds_renderAll fun t ht => succeeds_render_none {} _ (hscopes t ht)
  obtain ⟨store, hstore⟩ := (Declarations.succeeds_ofModule_iff {} (Project.middlewareDir {})
    (Module.check_eq_ok_iff.1 hcheck)).2 (by decide +kernel)
  obtain ⟨hfiles, hstores⟩ := imports_lead {} hhelpers hproject hcheck hmodule hrendered hshared
  exact ⟨rendered, shared, store, hrendered, hshared, hstore, hfiles, hstores store hstore⟩

end Renderer

end ModuleScaffold
