import ModuleScaffold.Proofs.Modules.Accepted
import ModuleScaffold.Template.Render

/-!
# The files of a module

With a helper for every style no template can fail, whatever the names are that it is rendered for.
So the files of a module are there in any layout, one for each place that its templates have
(`ModuleScaffold.Template.places`): two for the module and seven for each model.

Main statements:

* `ModuleScaffold.Renderer.succeeds_render`, `ModuleScaffold.Renderer.succeeds_renderModule` –
  **every template and all files of a module can be rendered**;
* `ModuleScaffold.Renderer.paths_of_renderModule` – **where the files of a module lie**.
-/

namespace ModuleScaffold

/-! ### Computations that succeed -/

/-- The computation gives a result. -/
def Succeeds {ε α : Type} (x : Except ε α) : Prop :=
  ∃ a, x = .ok a

namespace Succeeds

variable {ε ε' α β : Type} {x : Except ε α} {f : α → Except ε β}

theorem ok (a : α) : Succeeds (.ok a : Except ε α) :=
  ⟨a, rfl⟩

theorem bind (h : Succeeds x) (hf : ∀ a, Succeeds (f a)) : Succeeds (x >>= f) := by
  obtain ⟨a, rfl⟩ := h
  exact hf a

theorem mapError {g : ε → ε'} (h : Succeeds x) : Succeeds (x.mapError g) := by
  obtain ⟨a, rfl⟩ := h
  exact ok a

theorem mapM (hf : ∀ a, Succeeds (f a)) (as : List α) : Succeeds (as.mapM f) := by
  induction as with
  | nil => exact ok []
  | cons a as ih =>
    rw [List.mapM_cons]
    exact (hf a).bind fun b => ih.bind fun bs => ok (b :: bs)

end Succeeds

namespace Template

open Schema

variable {m : Module} {model : Model}

/-! ### The texts of the templates -/

/-- The standard table has a helper for every style. -/
theorem succeeds_use (style : Text.Style) (line : Nat) (name : String) :
    Succeeds (Helpers.standard.use style line name) := by
  have hfind : Helpers.standard.find? (helperName style) = some style.apply := by
    cases style <;> rfl
  exact ⟨style.apply name, by rw [Helpers.use, hfind]⟩

theorem succeeds_moduleServiceText (m : Module) :
    Succeeds (moduleServiceText .standard m) := by
  refine Succeeds.bind (Succeeds.mapM (fun model => ?_) m.models) fun _ => .ok _
  exact (succeeds_use _ _ model.name).bind fun _ => .ok _

theorem succeeds_moduleIndexText (m : Module) : Succeeds (moduleIndexText .standard m) :=
  (succeeds_use _ _ m.name).bind fun _ => .ok _

theorem succeeds_modelText (model : Model) : Succeeds (modelText .standard model) :=
  (Succeeds.mapM (fun related => (succeeds_use _ _ related).bind fun _ => .ok _) _).bind
    fun _ => (succeeds_use _ _ model.name).bind fun _ => .ok _

theorem succeeds_collectionText (moduleImport : String) (m : Module) (model : Model) :
    Succeeds (collectionText .standard moduleImport m model) :=
  (succeeds_use _ _ _).bind fun _ => (succeeds_use _ _ _).bind fun _ =>
    (succeeds_use _ _ _).bind fun _ => (succeeds_use _ _ _).bind fun _ => .ok _

theorem succeeds_itemText (moduleImport : String) (m : Module) (model : Model) :
    Succeeds (itemText .standard moduleImport m model) :=
  (succeeds_use _ _ _).bind fun _ => (succeeds_use _ _ _).bind fun _ => .ok _

theorem succeeds_listPageText (sdkImport : String) (m : Module) (model : Model) :
    Succeeds (listPageText .standard sdkImport m model) :=
  (succeeds_use _ _ _).bind fun _ => (succeeds_use _ _ _).bind fun _ =>
    (Succeeds.mapM (fun column => (succeeds_use _ _ column).bind fun _ => .ok _) _).bind
      fun _ => .ok _

theorem succeeds_inputText (line : Nat) (field : Field) :
    Succeeds (inputText .standard line field) :=
  (succeeds_use _ _ _).bind fun _ => .ok _

theorem succeeds_createFormText (sdkImport : String) (m : Module) (model : Model) :
    Succeeds (createFormText .standard sdkImport m model) :=
  (succeeds_use _ _ _).bind fun _ => (succeeds_use _ _ _).bind fun _ =>
    (Succeeds.mapM (succeeds_inputText 32) _).bind fun _ => .ok _

theorem succeeds_editFormText (sdkImport : String) (m : Module) (model : Model) :
    Succeeds (editFormText .standard sdkImport m model) :=
  (succeeds_use _ _ _).bind fun _ => (succeeds_use _ _ _).bind fun _ =>
    (Succeeds.mapM (succeeds_inputText 38) _).bind fun _ => .ok _

/-! ### The places of the files -/

/-- The places of the files that a model has in a module. -/
def modelPlaces (layout : Layout) (m : Module) (model : Model) : List Path :=
  (ofScope .model).filterMap fun t => t.modelPath layout m model

/-- The places of the files of a module. -/
def places (layout : Layout) (m : Module) : List Path :=
  (layout.moduleDir m.name).join "service.ts" :: (layout.moduleDir m.name).join "index.ts"
    :: m.models.flatMap (modelPlaces layout m)

end Template

namespace Renderer

open Schema

variable {m : Module}

theorem succeeds_modelText (layout : Layout) (template : Template) (m : Module) (model : Model) :
    Succeeds ((⟨.standard, layout⟩ : Renderer).modelText template m model) := by
  cases template with
  | model => exact Template.succeeds_modelText model
  | routeCollection => exact Template.succeeds_collectionText _ m model
  | routeItem => exact Template.succeeds_itemText _ m model
  | listPage => exact Template.succeeds_listPageText _ m model
  | createForm => exact Template.succeeds_createFormText _ m model
  | editForm => exact Template.succeeds_editFormText _ m model
  | _ => exact .ok _

/-- A template that is not for models can be rendered without one. -/
theorem succeeds_render_none (layout : Layout) (m : Module) {template : Template}
    (h : template.scope ≠ .model) :
    Succeeds ((⟨.standard, layout⟩ : Renderer).render template m none) := by
  refine Succeeds.mapError ?_
  cases template with
  | moduleService => exact (Template.succeeds_moduleServiceText m).mapError
  | moduleIndex => exact (Template.succeeds_moduleIndexText m).mapError (g := .unknownHelper)
  | unlessPath => exact .ok _
  | sdk => exact .ok _
  | _ => exact absurd rfl h

/-- **Every template can be rendered for a model.** -/
theorem succeeds_render (layout : Layout) (template : Template) (m : Module) (model : Model) :
    Succeeds ((⟨.standard, layout⟩ : Renderer).render template m (some model)) := by
  by_cases hscope : template.scope = .model
  · refine Succeeds.mapError ?_
    have htext := (succeeds_modelText layout template m model).mapError
      (g := RenderProblem.unknownHelper)
    cases template <;> first | exact absurd hscope (by decide) | exact htext
  · have hnone := succeeds_render_none layout m hscope
    cases template <;> first | exact absurd rfl hscope | exact hnone

theorem succeeds_renderAll {renderer : Renderer} {model? : Option Model}
    {templates : List Template} (h : ∀ t ∈ templates, Succeeds (renderer.render t m model?)) :
    Succeeds (renderer.renderAll m model? templates) := by
  induction templates with
  | nil => exact .ok []
  | cons t templates ih =>
    obtain ⟨ht, hrest⟩ := List.forall_mem_cons.1 h
    rw [renderAll]
    split
    · exact ih hrest
    · exact ht.bind fun _ => (ih hrest).bind fun _ => .ok _

theorem succeeds_renderModels (layout : Layout) (m : Module) (models : List Model) :
    Succeeds ((⟨.standard, layout⟩ : Renderer).renderModels m models) := by
  induction models with
  | nil => exact .ok []
  | cons model models ih =>
    have hmodel : Succeeds ((⟨.standard, layout⟩ : Renderer).renderAll m (some model)
        (Template.ofScope .model)) :=
      succeeds_renderAll fun t _ => succeeds_render layout t m model
    rw [renderModels]
    exact hmodel.bind fun _ => ih.bind fun _ => .ok _

/-- **The files of a module can be rendered.** -/
theorem succeeds_renderModule (layout : Layout) (m : Module) :
    Succeeds ((⟨.standard, layout⟩ : Renderer).renderModule m) := by
  have hscopes : ∀ t ∈ Template.ofScope .module, t.scope ≠ .model := by decide
  have hmodule : Succeeds ((⟨.standard, layout⟩ : Renderer).renderAll m none
      (Template.ofScope .module)) :=
    succeeds_renderAll fun t ht => succeeds_render_none layout m (hscopes t ht)
  rw [renderModule]
  exact hmodule.bind fun _ => (succeeds_renderModels layout m m.models).bind fun _ => .ok _

/-! ### Where the files lie -/

theorem paths_of_renderAll {renderer : Renderer} {model? : Option Model}
    {templates : List Template} {files : List File}
    (h : renderer.renderAll m model? templates = .ok files) :
    files.map File.path = templates.filterMap fun t => t.outputPath renderer.layout m model? := by
  induction templates generalizing files with
  | nil =>
    cases h
    rfl
  | cons t templates ih =>
    rw [renderAll] at h
    split at h
    · next hnone =>
      rw [ih h]
      simp only [List.filterMap_cons, hnone]
    · next path hpath =>
      obtain ⟨text, -, h⟩ := bind_eq_ok_iff.1 h
      obtain ⟨rest, hrest, h⟩ := bind_eq_ok_iff.1 h
      cases h
      rw [List.map_cons, ih hrest]
      simp only [List.filterMap_cons, hpath]

theorem paths_of_renderModels {renderer : Renderer} {models : List Model} {files : List File}
    (h : renderer.renderModels m models = .ok files) :
    files.map File.path = models.flatMap (Template.modelPlaces renderer.layout m) := by
  induction models generalizing files with
  | nil =>
    cases h
    rfl
  | cons model models ih =>
    rw [renderModels] at h
    obtain ⟨own, hown, h⟩ := bind_eq_ok_iff.1 h
    obtain ⟨rest, hrest, h⟩ := bind_eq_ok_iff.1 h
    cases h
    rw [List.map_append, paths_of_renderAll hown, ih hrest]
    rfl

theorem exists_of_mem_renderAll {renderer : Renderer} {model? : Option Model}
    {templates : List Template} {files : List File}
    (h : renderer.renderAll m model? templates = .ok files) {file : File} (hfile : file ∈ files) :
    ∃ t ∈ templates, t.outputPath renderer.layout m model? = some file.path ∧
      renderer.render t m model? = .ok file.text := by
  induction templates generalizing files with
  | nil =>
    cases h
    cases hfile
  | cons t templates ih =>
    rw [renderAll] at h
    split at h
    · obtain ⟨t', ht', hrendered⟩ := ih h hfile
      exact ⟨t', List.mem_cons_of_mem _ ht', hrendered⟩
    · next path hpath =>
      obtain ⟨text, htext, h⟩ := bind_eq_ok_iff.1 h
      obtain ⟨rest, hrest, h⟩ := bind_eq_ok_iff.1 h
      cases h
      rcases List.mem_cons.1 hfile with rfl | hfile
      · exact ⟨t, List.mem_cons_self, hpath, htext⟩
      · obtain ⟨t', ht', hrendered⟩ := ih hrest hfile
        exact ⟨t', List.mem_cons_of_mem _ ht', hrendered⟩

theorem exists_of_mem_renderModels {renderer : Renderer} {models : List Model} {files : List File}
    (h : renderer.renderModels m models = .ok files) {file : File} (hfile : file ∈ files) :
    ∃ model ∈ models, ∃ t ∈ Template.ofScope .model,
      t.outputPath renderer.layout m (some model) = some file.path ∧
        renderer.render t m (some model) = .ok file.text := by
  induction models generalizing files with
  | nil =>
    cases h
    cases hfile
  | cons model models ih =>
    rw [renderModels] at h
    obtain ⟨own, hown, h⟩ := bind_eq_ok_iff.1 h
    obtain ⟨rest, hrest, h⟩ := bind_eq_ok_iff.1 h
    cases h
    rcases List.mem_append.1 hfile with hfile | hfile
    · exact ⟨model, List.mem_cons_self, exists_of_mem_renderAll hown hfile⟩
    · obtain ⟨other, hother, hrendered⟩ := ih hrest hfile
      exact ⟨other, List.mem_cons_of_mem _ hother, hrendered⟩

/-- A file of a module is that of a template, for the module or for one of its models. -/
theorem exists_of_mem_renderModule {renderer : Renderer} {files : List File}
    (h : renderer.renderModule m = .ok files) {file : File} (hfile : file ∈ files) :
    (∃ t ∈ Template.ofScope .module, t.outputPath renderer.layout m none = some file.path ∧
      renderer.render t m none = .ok file.text) ∨
    ∃ model ∈ m.models, ∃ t ∈ Template.ofScope .model,
      t.outputPath renderer.layout m (some model) = some file.path ∧
        renderer.render t m (some model) = .ok file.text := by
  rw [renderModule] at h
  obtain ⟨own, hown, h⟩ := bind_eq_ok_iff.1 h
  obtain ⟨rest, hrest, h⟩ := bind_eq_ok_iff.1 h
  cases h
  rcases List.mem_append.1 hfile with hfile | hfile
  · exact .inl (exists_of_mem_renderAll hown hfile)
  · exact .inr (exists_of_mem_renderModels hrest hfile)

/-- **The files of a module lie at its places.** -/
theorem paths_of_renderModule {renderer : Renderer} {files : List File}
    (h : renderer.renderModule m = .ok files) :
    files.map File.path = Template.places renderer.layout m := by
  rw [renderModule] at h
  obtain ⟨own, hown, h⟩ := bind_eq_ok_iff.1 h
  obtain ⟨rest, hrest, h⟩ := bind_eq_ok_iff.1 h
  cases h
  rw [List.map_append, paths_of_renderAll hown, paths_of_renderModels hrest]
  rfl

end Renderer

end ModuleScaffold
