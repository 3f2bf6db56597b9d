import ModuleScaffold.Proofs.Merge.Rewritten
import ModuleScaffold.Proofs.Modules.Written

/-!
# Names in the file that modules share

All modules declare their names in one file. Most of these names come from one place, whichever
model they are declared for. The checks of a model are imported from the directory of its routes,
under names that are made of the name of the model alone. Within a module the names of the models
are different; between modules nothing compares them, so two modules can import one name from two
places.

Main statement: `ModuleScaffold.bindsOnce_iff` – **accepted modules are merged exactly if what they
declare can be expressed, and then no name is bound twice exactly if models with the same name have
their checks in the same place**.
-/

namespace ModuleScaffold

open Schema

namespace Declarations

variable {layout : Layout} {middlewareDir : Path} {m m' : Module} {model a b : Model}
  {name : String} {binder other : Store.Binder}

/-! ### Names and their first letters -/

/-- What binds a name that is no check of a body, by its first letter. -/
def commonBinder (layout : Layout) (middlewareDir : Path) (name : String) : Store.Binder :=
  match name.toList.head? with
  | some 'c' => .imported validatorsSource
  | some 'u' => .imported (unlessPathImport layout middlewareDir)
  | some 'G' => .defined
  | _ => .imported httpSource

/-- A check of a body is imported from the directory of its model. Any other name has the same
binder for all models. -/
theorem Names.common_or_check (h : Names layout middlewareDir m model name binder) :
    (name.toList.head? ≠ some 'P' ∧ binder = commonBinder layout middlewareDir name) ∨
      name.toList.head? = some 'P' ∧ name ∈ [model.createValidator, model.updateValidator] ∧
        binder = .imported (validatorsImport layout middlewareDir m model) := by
  cases h with
  | http hname =>
    simp only [List.mem_cons, List.not_mem_nil, or_false] at hname
    rcases hname with rfl | rfl | rfl <;> exact .inl ⟨by decide, rfl⟩
  | findParams => exact .inl ⟨by decide, rfl⟩
  | validator hname =>
    refine .inr ⟨?_, hname, rfl⟩
    rcases List.mem_pair.1 hname with rfl | rfl
    · rw [Model.toList_createValidator]
      rfl
    · rw [Model.toList_updateValidator]
      rfl
  | unlessPath => exact .inl ⟨by decide, rfl⟩
  | listSchema =>
    have hhead : model.listSchema.toList.head? = some 'G' := by
      rw [Model.listSchema, String.toList_append, String.toList_append]
      rfl
    refine .inl ⟨by rw [hhead]; decide, ?_⟩
    rw [commonBinder, hhead]
    rfl

/-- The name of a check tells the name of the model. -/
theorem name_eq_of_mem_checks (ha : name ∈ [a.createValidator, a.updateValidator])
    (hb : name ∈ [b.createValidator, b.updateValidator]) : a.name = b.name := by
  rcases List.mem_pair.1 ha with rfl | rfl <;> rcases List.mem_pair.1 hb with hb | hb
  · exact Model.createValidator_inj.1 hb
  · exact absurd hb (Model.createValidator_ne_updateValidator a b)
  · exact absurd hb.symm (Model.createValidator_ne_updateValidator b a)
  · exact Model.updateValidator_inj.1 hb

/-- A name has the same binder for two models if their checks lie in the same place or they have
different names. -/
theorem Names.binder_eq (ha : Names layout middlewareDir m a name binder)
    (hb : Names layout middlewareDir m' b name other)
    (hchecks : a.name = b.name →
      validatorsImport layout middlewareDir m a = validatorsImport layout middlewareDir m' b) :
    binder = other := by
  rcases ha.common_or_check with ⟨hcommon, rfl⟩ | ⟨hcheck, hname, rfl⟩ <;>
    rcases hb.common_or_check with ⟨hcommon', rfl⟩ | ⟨hcheck', hname', rfl⟩
  · rfl
  · exact absurd hcheck' hcommon
  · exact absurd hcheck hcommon'
  · rw [hchecks (name_eq_of_mem_checks hname hname')]

/-! ### Merged modules -/

/-- What a module declares, if nothing is refused. -/
def allDeclared (layout : Layout) (middlewareDir : Path) (m : Module) : Store :=
  Store.empty.overlayAll (m.models.map (declared layout middlewareDir m))

theorem canonical_allDeclared (h : ∀ model ∈ m.models, Declarable m model) :
    (allDeclared layout middlewareDir m).Canonical :=
  Store.Canonical.empty.overlayAll (canonical_of_mem_declared h)

theorem boundBy_allDeclared (haccepted : m.Accepted)
    (h : ∀ model ∈ m.models, Declarable m model) :
    (allDeclared layout middlewareDir m).BoundBy name binder ↔
      ∃ model ∈ m.models, Names layout middlewareDir m model name binder := by
  rw [allDeclared, Store.boundBy_overlayAll Store.Canonical.empty.imports
    (canonical_of_mem_declared h), or_iff_right Store.boundBy_empty]
  simp only [List.mem_map, exists_exists_and_eq_and]
  exact exists_congr fun model => and_congr_right fun hmodel =>
    boundBy_declared (haccepted.wellNamed model hmodel).name

end Declarations

open Declarations

variable {project : Project} {base store : Store} {modules : List Module} {name : String}
  {binder : Store.Binder}

/-- Modules are merged exactly if nothing of them is refused, and then each adds what it
declares. -/
theorem mergeModules_allDeclared_iff : mergeModules project base modules = .ok store ↔
    (∀ m ∈ modules, ∀ model ∈ m.models, Declarable m model) ∧
      store = base.overlayAll (modules.map (allDeclared project.layout project.middlewareDir)) := by
  induction modules generalizing base with
  | nil =>
    rw [mergeModules, Except.ok.injEq, eq_comm]
    exact (and_iff_right fun _ h => absurd h List.not_mem_nil).symm
  | cons m modules ih =>
    simp only [mergeModules_cons_eq_ok_iff, ofModule_eq_ok_iff, ih, List.forall_mem_cons,
      List.map_cons]
    constructor
    · rintro ⟨_, ⟨hm, rfl⟩, -, hmodules, rfl⟩
      exact ⟨⟨hm, hmodules⟩, rfl⟩
    · rintro ⟨⟨hm, hmodules⟩, rfl⟩
      exact ⟨_, ⟨hm, rfl⟩, (canonical_allDeclared hm).writable, hmodules, rfl⟩

/-- Accepted modules are merged exactly if what they declare can be expressed. -/
theorem succeeds_mergeModules_iff (project : Project) (haccepted : ∀ m ∈ modules, m.Accepted) :
    Succeeds (mergeModules project .empty modules) ↔ ∀ m ∈ modules, m.Expressible := by
  rw [← forall₂_congr fun m hm => forall_declarable_iff (haccepted m hm)]
  constructor
  · rintro ⟨store, hstore⟩
    exact (mergeModules_allDeclared_iff.1 hstore).1
  · exact fun hall => ⟨_, mergeModules_allDeclared_iff.2 ⟨hall, rfl⟩⟩

/-- What binds a name in merged modules. -/
theorem boundBy_mergeModules (haccepted : ∀ m ∈ modules, m.Accepted)
    (hstore : mergeModules project .empty modules = .ok store) : store.BoundBy name binder ↔
      ∃ m ∈ modules, ∃ model ∈ m.models,
        Names project.layout project.middlewareDir m model name binder := by
  obtain ⟨hdeclarable, rfl⟩ := mergeModules_allDeclared_iff.1 hstore
  have hcanonical : ∀ upper ∈ modules.map (allDeclared project.layout project.middlewareDir),
      upper.Canonical :=
    List.forall_mem_map.2 fun m hm => canonical_allDeclared (hdeclarable m hm)
  rw [Store.boundBy_overlayAll Store.Canonical.empty.imports hcanonical,
    or_iff_right Store.boundBy_empty]
  simp only [List.mem_map, exists_exists_and_eq_and]
  exact exists_congr fun m => and_congr_right fun hm =>
    boundBy_allDeclared (haccepted m hm) (hdeclarable m hm)

/-- Models with the same name have their checks in the same place. -/
def ChecksAgree (project : Project) (modules : List Module) : Prop :=
  ∀ m ∈ modules, ∀ a ∈ m.models, ∀ m' ∈ modules, ∀ b ∈ m'.models, a.name = b.name →
    validatorsImport project.layout project.middlewareDir m a =
      validatorsImport project.layout project.middlewareDir m' b

instance (project : Project) (modules : List Module) : Decidable (ChecksAgree project modules) :=
  inferInstanceAs (Decidable (∀ m ∈ modules, ∀ a ∈ m.models, ∀ m' ∈ modules, ∀ b ∈ m'.models,
    a.name = b.name → validatorsImport project.layout project.middlewareDir m a =
      validatorsImport project.layout project.middlewareDir m' b))

/-- **Accepted modules are merged exactly if what they declare can be expressed, and then no name is
bound twice exactly if models with the same name have their checks in the same place.** -/
theorem bindsOnce_iff (project : Project) (h : ∀ m ∈ modules, m.check = .ok ()) :
    (Succeeds (mergeModules project .empty modules) ↔ ∀ m ∈ modules, m.Expressible) ∧
      ∀ store, mergeModules project .empty modules = .ok store →
        (store.BindsOnce ↔ ChecksAgree project modules) := by
  have haccepted : ∀ m ∈ modules, m.Accepted := fun m hm => Module.check_eq_ok_iff.1 (h m hm)
  refine ⟨succeeds_mergeModules_iff project haccepted, fun store hstore => ?_⟩
  have hbound : ∀ name binder, store.BoundBy name binder ↔ ∃ m ∈ modules, ∃ model ∈ m.models,
      Names project.layout project.middlewareDir m model name binder :=
    fun _ _ => boundBy_mergeModules haccepted hstore
  constructor
  · intro honce m hm a ha m' hm' b hb hname
    have hvalidator : a.createValidator = b.createValidator := Model.createValidator_inj.2 hname
    have hleft := (hbound a.createValidator _).2 ⟨m, hm, a, ha, .validator List.mem_cons_self⟩
    have hright := (hbound a.createValidator _).2
      ⟨m', hm', b, hb, .validator (hvalidator ▸ List.mem_cons_self)⟩
    exact Store.Binder.imported.inj (honce _ _ _ hleft hright)
  · intro hagree name binder other hbinder hother
    obtain ⟨m, hm, a, ha, hbinder⟩ := (hbound name binder).1 hbinder
    obtain ⟨m', hm', b, hb, hother⟩ := (hbound name other).1 hother
    exact hbinder.binder_eq hother (hagree m hm a ha m' hm' b hb)

/-- A module of the given name with one model. -/
def itemStore (name : String) : Module :=
  ⟨name, name, [⟨"Item", "item", "items", false, none, []⟩]⟩

theorem bindsOnce_partsModule_itemStore :
    (∀ m ∈ [partsModule "kits" "parts", itemStore "shop"], m.check = .ok ()) ∧
      ∃ store, mergeModules {} .empty [partsModule "kits" "parts", itemStore "shop"] = .ok store ∧
        store.BindsOnce := by
  have hchecks : ∀ m ∈ [partsModule "kits" "parts", itemStore "shop"], m.check = .ok () := by
    decide +kernel
  obtain ⟨hsucceeds, honce⟩ := bindsOnce_iff {} hchecks
  obtain ⟨store, hstore⟩ := hsucceeds.2 (by decide +kernel)
  exact ⟨hchecks, store, hstore, (honce store hstore).2 (by decide +kernel)⟩

/-- Two modules whose models have the same name are accepted, and their routes are different. The
merged file imports the checks of both under one name. -/
theorem bound_twice_itemStore : (∀ m ∈ [itemStore "shop", itemStore "depot"], m.check = .ok ()) ∧
    ([itemStore "shop", itemStore "depot"].map Module.name).Nodup ∧
      ([itemStore "shop", itemStore "depot"].flatMap fun m => m.models.map m.basePath).Nodup ∧
        ∃ store, mergeModules {} .empty [itemStore "shop", itemStore "depot"] = .ok store ∧
          store.BoundBy "PostAdminCreateItem" (.imported "./admin/shop/items/validators") ∧
            store.BoundBy "PostAdminCreateItem" (.imported "./admin/depot/items/validators") ∧
              ¬store.BindsOnce := by
  have hchecks : ∀ m ∈ [itemStore "shop", itemStore "depot"], m.check = .ok () := by
    decide +kernel
  have haccepted : ∀ m ∈ [itemStore "shop", itemStore "depot"], m.Accepted :=
    fun m hm => Module.check_eq_ok_iff.1 (hchecks m hm)
  obtain ⟨store, hstore⟩ := (succeeds_mergeModules_iff {} haccepted).2 (by decide +kernel)
  have hbound : ∀ m ∈ [itemStore "shop", itemStore "depot"], ∀ model ∈ m.models,
      store.BoundBy model.createValidator
        (.imported (validatorsImport {} (Project.middlewareDir {}) m model)) :=
    fun m hm model hmodel => (boundBy_mergeModules haccepted hstore).2
      ⟨m, hm, model, hmodel, .validator List.mem_cons_self⟩
  have hnames : ∀ m ∈ [itemStore "shop", itemStore "depot"], ∀ model ∈ m.models,
      model.createValidator = "PostAdminCreateItem" ∧
        validatorsImport {} (Project.middlewareDir {}) m model =
          "./admin/" ++ m.name ++ "/items/validators" := by
    decide +kernel
  have himported : ∀ m ∈ [itemStore "shop", itemStore "depot"],
      store.BoundBy "PostAdminCreateItem"
        (.imported ("./admin/" ++ m.name ++ "/items/validators")) := by
    intro m hm
    obtain ⟨model, hmodel⟩ := List.exists_mem_of_ne_nil _ (haccepted m hm).models
    obtain ⟨hname, hsource⟩ := hnames m hm model hmodel
    exact hname ▸ hsource ▸ hbound m hm model hmodel
  have hshop := himported (itemStore "shop") List.mem_cons_self
  have hdepot := himported (itemStore "depot") (List.mem_cons_of_mem _ List.mem_cons_self)
  refine ⟨hchecks, by decide +kernel, by decide +kernel, store, hstore, hshop, hdepot, ?_⟩
  exact fun honce => absurd (honce _ _ _ hshop hdepot) (by decide)

end ModuleScaffold
