import ModuleScaffold.Proofs.Modules.Places
import ModuleScaffold.Proofs.Modules.Written
import Mathlib.Data.List.Perm.Basic

/-!
# Files of a module that overwrite each other

The files of a run are written one after the other, and a file replaces what lies at its place. The
check of a module compares the names of the models as they are written and their routes not at all.
But files have names in small letters, and a path forgets empty pieces, so models that are
different can have the same files (`ModuleScaffold.Template.FilesApart`): names that differ only in
their letters have the same definition and the same forms, whatever their routes are.

Templates of different kinds stay apart by the names of their files and directories. One case
remains: a module may be named by a path from the root that leads among the routes
(`ModuleScaffold.Template.DefinitionsApart`).

Main statement: `ModuleScaffold.Renderer.paths_apart_iff` – **the files of an accepted module lie at
different places exactly if those of its models do**.
-/

namespace ModuleScaffold

namespace Template

open Schema ModuleScaffold.Path

variable {layout : Layout} {m : Module} {model a b : Model}

/-! ### Two models -/

/-- The files of two models lie apart. -/
structure FilesApart (m : Module) (a b : Model) : Prop where
  /-- The definitions have different names. -/
  definitions : Text.Style.snake.apply a.name ≠ Text.Style.snake.apply b.name
  /-- The forms have different names. -/
  forms : Text.Style.kebab.apply a.name ≠ Text.Style.kebab.apply b.name
  /-- The routes of the collections are different paths. -/
  collections : (⟨m.basePath a⟩ : Path).components ≠ (⟨m.basePath b⟩ : Path).components
  /-- The first collection does not lie where the items of the second one do. -/
  left : (⟨m.basePath a⟩ : Path).components ≠
    (⟨m.basePath b⟩ : Path).components ++ [.name "[id]"]
  /-- The second collection does not lie where the items of the first one do. -/
  right : (⟨m.basePath b⟩ : Path).components ≠
    (⟨m.basePath a⟩ : Path).components ++ [.name "[id]"]

instance (m : Module) (a b : Model) : Decidable (FilesApart m a b) :=
  decidable_of_iff (Text.Style.snake.apply a.name ≠ Text.Style.snake.apply b.name ∧
      Text.Style.kebab.apply a.name ≠ Text.Style.kebab.apply b.name ∧
      (⟨m.basePath a⟩ : Path).components ≠ (⟨m.basePath b⟩ : Path).components ∧
      (⟨m.basePath a⟩ : Path).components ≠
        (⟨m.basePath b⟩ : Path).components ++ [.name "[id]"] ∧
      (⟨m.basePath b⟩ : Path).components ≠ (⟨m.basePath a⟩ : Path).components ++ [.name "[id]"])
    ⟨fun h => ⟨h.1, h.2.1, h.2.2.1, h.2.2.2.1, h.2.2.2.2⟩,
      fun h => ⟨h.definitions, h.forms, h.collections, h.left, h.right⟩⟩

/-- No model is defined where a handler of a model lies. -/
def DefinitionsApart (layout : Layout) (m : Module) : Prop :=
  ∀ a ∈ m.models, ∀ b ∈ m.models, definitionSpot layout m a ∉ handlerSpots layout m b

theorem definitionSpot_ne_iff : definitionSpot layout m a ≠ definitionSpot layout m b ↔
    Text.Style.snake.apply a.name ≠ Text.Style.snake.apply b.name := by
  rw [definitionSpot, definitionSpot, ne_eq, Spot.mk.injEq, and_iff_right rfl,
    String.append_left_inj]

theorem nodup_handlerSpots (layout : Layout) (m : Module) (model : Model) :
    (handlerSpots layout m model).Nodup := by
  simp [handlerSpots]

/-- The handlers of two models lie apart if those of the collections do, and those of each
collection and of the items of the other model. -/
theorem disjoint_handlerSpots_iff :
    (handlerSpots layout m a).Disjoint (handlerSpots layout m b) ↔
      below m a ≠ below m b ∧ below m a ≠ below m b ++ [.name "[id]"] ∧
        below m b ≠ below m a ++ [.name "[id]"] := by
  simp only [handlerSpots, handlerDirectory, List.append_assoc, List.cons_append,
    List.disjoint_left, List.mem_cons, List.not_mem_nil, or_false, not_or, forall_eq_or_imp,
    forall_eq, Spot.mk.injEq, List.append_cancel_left_eq, List.append_cancel_right_eq,
    List.cons.injEq, String.reduceEq, true_and, and_true, and_false, not_false_eq_true,
    ne_eq, eq_comm (b := below m b)]
  constructor
  · rintro ⟨hcollections, ⟨-, hleft⟩, hright, -⟩
    exact ⟨hcollections, hleft, hright⟩
  · rintro ⟨hcollections, hleft, hright⟩
    exact ⟨hcollections, ⟨hcollections, hleft⟩, hright, hcollections⟩

theorem create_ne_edit (name other : String) : "create-" ++ name ≠ "edit-" ++ other := by
  intro h
  rw [← String.toList_inj, String.toList_append, String.toList_append] at h
  exact absurd (List.cons.inj h).1 (by decide)

theorem nodup_pageSpots (layout : Layout) (m : Module) (model : Model) :
    (pageSpots layout m model).Nodup := by
  simp [pageSpots]

/-- The pages of two models lie apart if their lists and their forms do. A form tells by its name
for which model it is. -/
theorem disjoint_pageSpots_iff :
    (pageSpots layout m a).Disjoint (pageSpots layout m b) ↔
      below m a ≠ below m b ∧
        Text.Style.kebab.apply a.name ≠ Text.Style.kebab.apply b.name := by
  have hforms : Text.Style.kebab.apply a.name = Text.Style.kebab.apply b.name →
      inner (Text.Style.kebab.apply a.name).toList =
        inner (Text.Style.kebab.apply b.name).toList := fun h => by rw [h]
  simp only [pageSpots, List.disjoint_left, List.mem_cons, List.not_mem_nil, or_false, not_or,
    forall_eq_or_imp, forall_eq, Spot.mk.injEq, List.append_cancel_left_eq, List.cons.injEq,
    Component.name.injEq, String.reduceEq, String.append_left_inj, String.append_right_inj,
    create_ne_edit, (create_ne_edit _ _).symm, true_and, and_true, false_and, and_false,
    not_false_eq_true, ne_eq]
  constructor
  · rintro ⟨hlists, hform, -⟩
    exact ⟨hlists, fun hname => hform ⟨hforms hname, hname⟩⟩
  · rintro ⟨hlists, hname⟩
    exact ⟨hlists, fun h => hname h.2, fun h => hname h.2⟩

/-- Two models have different files if their definitions, their handlers and their pages lie
apart. -/
theorem filesApart_iff (layout : Layout) : FilesApart m a b ↔
    definitionSpot layout m a ≠ definitionSpot layout m b ∧
      (handlerSpots layout m a).Disjoint (handlerSpots layout m b) ∧
        (pageSpots layout m a).Disjoint (pageSpots layout m b) := by
  rw [definitionSpot_ne_iff, disjoint_handlerSpots_iff, disjoint_pageSpots_iff]
  constructor
  · intro h
    have hcollections := h.collections
    have hleft := h.left
    have hright := h.right
    simp only [components_basePath, List.cons_append, ne_eq, List.cons.injEq, true_and] at *
    exact ⟨h.definitions, ⟨hcollections, hleft, hright⟩, hcollections, h.forms⟩
  · rintro ⟨hdefinitions, ⟨hcollections, hleft, hright⟩, -, hforms⟩
    refine ⟨hdefinitions, hforms, ?_, ?_, ?_⟩ <;>
      simpa only [components_basePath, List.cons_append, ne_eq, List.cons.injEq, true_and]

/-! ### All files -/

/-- The ending of the pages. -/
theorem getLast?_file_pageSpots : ∀ spot ∈ pageSpots layout m model,
    spot.file.toList.getLast? = some 'x' := by
  simp only [pageSpots, List.forall_mem_cons]
  exact ⟨rfl, getLast?_append rfl, getLast?_append rfl, List.forall_mem_nil _⟩

theorem getLast?_file_definitionSpot (layout : Layout) (m : Module) (model : Model) :
    (definitionSpot layout m model).file.toList.getLast? = some 's' :=
  getLast?_append rfl

theorem getLast?_file_handlerSpots : ∀ spot ∈ handlerSpots layout m model,
    spot.file.toList.getLast? = some 's' := by
  simp [handlerSpots]

theorem getLast?_file_moduleSpots : ∀ spot ∈ moduleSpots layout m,
    spot.file.toList.getLast? = some 's' := by
  simp [moduleSpots]

/-- The spots of all definitions, handlers and pages of a module. -/
theorem perm_spots (layout : Layout) (m : Module) : (spots layout m).Perm
    (moduleSpots layout m ++ (m.models.map (definitionSpot layout m) ++
      (m.models.flatMap (handlerSpots layout m) ++ m.models.flatMap (pageSpots layout m)))) := by
  refine List.Perm.append_left _ (List.Perm.trans ?_ (List.Perm.append_left _
    (List.flatMap_append_perm _ _ _).symm))
  exact (List.map_append_flatMap_perm m.models (definitionSpot layout m) fun model =>
    handlerSpots layout m model ++ pageSpots layout m model).symm

/-- Files with different endings lie apart. -/
theorem disjoint_of_getLast? {scripts pages : List Spot}
    (hscripts : ∀ spot ∈ scripts, spot.file.toList.getLast? = some 's')
    (hpages : ∀ spot ∈ pages, spot.file.toList.getLast? = some 'x') : scripts.Disjoint pages := by
  intro spot hscript hpage
  have hsame := (hscripts spot hscript).symm.trans (hpages spot hpage)
  exact absurd hsame (by decide)

/-- The files of the module itself are no definitions: they lie above them. -/
theorem disjoint_moduleSpots_definitions (layout : Layout) (m : Module) :
    (moduleSpots layout m).Disjoint (m.models.map (definitionSpot layout m)) := by
  intro spot hspot hdefinition
  obtain ⟨model, -, rfl⟩ := List.mem_map.1 hdefinition
  simp [moduleSpots, definitionSpot] at hspot

/-- The files of the module itself are no handlers: they have other names. -/
theorem disjoint_moduleSpots_handlers (layout : Layout) (m : Module) :
    (moduleSpots layout m).Disjoint (m.models.flatMap (handlerSpots layout m)) := by
  intro spot hspot hhandler
  obtain ⟨model, -, hhandler⟩ := List.mem_flatMap.1 hhandler
  simp only [moduleSpots, List.mem_cons, List.not_mem_nil, or_false] at hspot
  rcases hspot with rfl | rfl <;> simp [handlerSpots] at hhandler

theorem disjoint_definitions_handlers_iff : (m.models.map (definitionSpot layout m)).Disjoint
    (m.models.flatMap (handlerSpots layout m)) ↔ DefinitionsApart layout m := by
  simp only [List.disjoint_left, List.mem_map, List.mem_flatMap, forall_exists_index, and_imp,
    forall_apply_eq_imp_iff₂, not_exists, not_and, DefinitionsApart]

/-- The pages of a module lie apart from all other files. -/
theorem disjoint_pages {scripts : List Spot}
    (hscripts : ∀ spot ∈ scripts, spot.file.toList.getLast? = some 's') :
    scripts.Disjoint (m.models.flatMap (pageSpots layout m)) :=
  disjoint_of_getLast? hscripts <| List.forall_mem_flatMap.2 fun _ _ => getLast?_file_pageSpots

/-- The models lie apart if all definitions, all handlers and all pages do. -/
theorem pairwise_filesApart_iff (layout : Layout) : m.models.Pairwise (FilesApart m) ↔
    (m.models.map (definitionSpot layout m)).Nodup ∧
      (m.models.flatMap (handlerSpots layout m)).Nodup ∧
        (m.models.flatMap (pageSpots layout m)).Nodup := by
  have hdefinitions : (m.models.map (definitionSpot layout m)).Nodup ↔
      m.models.Pairwise fun a b => definitionSpot layout m a ≠ definitionSpot layout m b :=
    List.pairwise_map
  rw [hdefinitions, List.nodup_flatMap, List.nodup_flatMap,
    and_iff_right fun model _ => nodup_handlerSpots layout m model,
    and_iff_right fun model _ => nodup_pageSpots layout m model, ← List.pairwise_and_iff,
    ← List.pairwise_and_iff]
  exact Iff.of_eq (congrArg (List.Pairwise · m.models)
    (funext₂ fun a b => propext (filesApart_iff layout)))

/-- The spots of a module are different exactly if those of its models are. -/
theorem nodup_spots_iff : (spots layout m).Nodup ↔
    m.models.Pairwise (FilesApart m) ∧ DefinitionsApart layout m := by
  have hdefinitionFiles : ∀ spot ∈ m.models.map (definitionSpot layout m),
      spot.file.toList.getLast? = some 's' :=
    List.forall_mem_map.2 fun model _ => getLast?_file_definitionSpot layout m model
  have hhandlerFiles : ∀ spot ∈ m.models.flatMap (handlerSpots layout m),
      spot.file.toList.getLast? = some 's' :=
    List.forall_mem_flatMap.2 fun _ _ => getLast?_file_handlerSpots
  have hmodule : (moduleSpots layout m).Nodup := by simp [moduleSpots]
  rw [(perm_spots layout m).nodup_iff, List.nodup_append', List.nodup_append', List.nodup_append',
    List.disjoint_append_right, List.disjoint_append_right, List.disjoint_append_right,
    disjoint_definitions_handlers_iff, pairwise_filesApart_iff layout]
  constructor
  · rintro ⟨-, ⟨hdefinitions, ⟨hhandlers, hpages, -⟩, hapart, -⟩, -⟩
    exact ⟨⟨hdefinitions, hhandlers, hpages⟩, hapart⟩
  · rintro ⟨⟨hdefinitions, hhandlers, hpages⟩, hapart⟩
    exact ⟨hmodule, ⟨hdefinitions, ⟨hhandlers, hpages, disjoint_pages hhandlerFiles⟩, hapart,
      disjoint_pages hdefinitionFiles⟩, disjoint_moduleSpots_definitions layout m,
      disjoint_moduleSpots_handlers layout m, disjoint_pages getLast?_file_moduleSpots⟩

/-- A module whose name does not start at the root defines its models below the directory of the
modules, where no handler lies. -/
theorem definitionsApart_of_relative (h : m.name.toList.head? ≠ some '/') :
    DefinitionsApart layout m := by
  intro a _ b _ hmem
  simp only [handlerSpots, handlerDirectory, definitionSpot, components_moduleDir h,
    components_apiDir, List.append_assoc, List.cons_append, List.nil_append, List.mem_cons,
    List.not_mem_nil, Spot.mk.injEq, List.append_cancel_left_eq, List.cons.injEq,
    Component.name.injEq, String.reduceEq, false_and, or_self] at hmem

end Template

namespace Renderer

open Schema Template Declarations

variable {renderer : Renderer} {m : Module} {files : List File}

/-- **The files of an accepted module lie at different places exactly if those of its models
do.** -/
theorem paths_apart_iff (h : m.check = .ok ()) (hfiles : renderer.renderModule m = .ok files) :
    (files.Pairwise fun file other => file.path.same other.path = false) ↔
      m.models.Pairwise (FilesApart m) ∧ DefinitionsApart renderer.layout m := by
  have hcomponents : files.map (fun file => file.path.components) =
      (spots renderer.layout m).map Spot.components := by
    rw [← components_places (Module.check_eq_ok_iff.1 h), ← paths_of_renderModule hfiles,
      List.map_map]
    rfl
  rw [← nodup_spots_iff, ← List.nodup_map_iff Spot.components_injective, ← hcomponents, List.Nodup,
    List.pairwise_map]
  simp only [Path.same, beq_eq_false_iff_ne, ne_eq]

theorem paths_apart_partsModule : (partsModule "kits" "parts").check = .ok () ∧
    ∃ files, (⟨.standard, {}⟩ : Renderer).renderModule (partsModule "kits" "parts") = .ok files ∧
      files.Pairwise fun file other => file.path.same other.path = false := by
  have hcheck : (partsModule "kits" "parts").check = .ok () := by decide +kernel
  obtain ⟨files, hfiles⟩ := succeeds_renderModule {} (partsModule "kits" "parts")
  have hmodels : (partsModule "kits" "parts").models.Pairwise
      (FilesApart (partsModule "kits" "parts")) := by decide +kernel
  exact ⟨hcheck, files, hfiles, (paths_apart_iff hcheck hfiles).2
    ⟨hmodels, definitionsApart_of_relative (by decide)⟩⟩

/-- A module with two models whose names differ in their first letter alone. -/
def itemModule : Module :=
  ⟨"shop", "shop", [⟨"Item", "item", "items", false, none, []⟩,
    ⟨"item", "part", "parts", false, none, []⟩]⟩

/-- Names that differ in a capital are accepted, and the routes are different. But both models have
the same definition and the same forms. -/
theorem overwritten_itemModule : itemModule.check = .ok () ∧
    itemModule.models.Pairwise (fun a b => itemModule.basePath a ≠ itemModule.basePath b) ∧
      ∃ files, (⟨.standard, {}⟩ : Renderer).renderModule itemModule = .ok files ∧
        ¬files.Pairwise fun file other => file.path.same other.path = false := by
  have hcheck : itemModule.check = .ok () := by decide +kernel
  obtain ⟨files, hfiles⟩ := succeeds_renderModule {} itemModule
  refine ⟨hcheck, by decide +kernel, files, hfiles, fun hapart => ?_⟩
  have hplaces : (places {} itemModule).Pairwise fun path other => path.same other = false := by
    rw [← paths_of_renderModule hfiles]
    exact List.pairwise_map.2 hapart
  -- the definitions are the third file and, behind the seven files of the first model, the tenth
  have hdefinitions := List.pairwise_iff_getElem.1 hplaces 2 9 (by decide) (by decide) (by decide)
  exact absurd hdefinitions (by decide +kernel)

end Renderer

end ModuleScaffold
