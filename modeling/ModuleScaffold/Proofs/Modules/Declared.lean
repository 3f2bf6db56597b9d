import ModuleScaffold.Proofs.Modules.Accepted
import ModuleScaffold.Proofs.Modules.Names
import ModuleScaffold.Proofs.Modules.Nested
import ModuleScaffold.Proofs.References.Binders

/-!
# What a module declares

The declarations of a model are made of names, which may be refused, and of routes, which may be
impossible to write. If nothing is refused they are a store that can be given at once
(`ModuleScaffold.Declarations.declared`), and those of a module are the stores of its models, one
laid over the other.

Main statements:

* `ModuleScaffold.Declarations.ofModule_eq_ok_iff` – **what a module declares, and when it does**;
* `ModuleScaffold.Declarations.forall_declarable_iff` – **the names and routes of an accepted module
  are refused exactly if a word for several items does not fit into a name or a route spans lines**;
* `ModuleScaffold.Declarations.boundBy_declared` – **what binds a name in the declarations of a
  model**.
-/

namespace ModuleScaffold

namespace Declarations

open Schema

variable {layout : Layout} {middlewareDir : Path} {m : Module} {model : Model}
  {store : Store} {name : String} {binder : Store.Binder}

/-! ### The store of a model -/

/-- The schema constant of a model. -/
def definition (model : Model) : Definition :=
  ⟨model.listSchema, findParams ++ "()", true⟩

/-- The imports of a model and its schema constant. -/
def named (layout : Layout) (middlewareDir : Path) (m : Module) (model : Model) : Store :=
  let store := (addImports layout middlewareDir m model .empty).insertDefinition (definition model)
  if (nestedPattern m model).isSome then
    store.addImport (unlessPathImport layout middlewareDir) Call.unlessPathName
  else store

/-- The declarations of a model, if none of them is refused. -/
def declared (layout : Layout) (middlewareDir : Path) (m : Module) (model : Model) : Store :=
  { named layout middlewareDir m model with
    routes := (routes m model).foldl (fun routes route => Store.insertRoute route routes) [] }

/-- None of the declarations of a model is refused. -/
structure Declarable (m : Module) (model : Model) : Prop where
  /-- The name of the schema constant is an identifier. -/
  listSchema : Text.isIdentifier model.listSchema = true
  /-- The routes can be written. -/
  routes : ∀ route ∈ routes m model, route.problem? = none

theorem routes_named : (named layout middlewareDir m model).routes = [] := by
  rw [named]
  split <;> rfl

theorem definitions_declared :
    (declared layout middlewareDir m model).definitions = [definition model] := by
  rw [declared, named]
  split <;> rfl

theorem statements_declared : (declared layout middlewareDir m model).statements = [] := by
  rw [declared, named]
  split <;> rfl

/-- The initializer of a schema constant is an expression, and it is kept as it is. -/
theorem addDefinition_listSchema_iff {result : Store} :
    store.addDefinition model.listSchema (findParams ++ "()") true = .ok result ↔
      Text.isIdentifier model.listSchema = true ∧
        result = store.insertDefinition (definition model) := by
  have htext : Store.initializerText (findParams ++ "()") = findParams ++ "()" := by
    decide +kernel
  have hexpression : Source.checkExpression (findParams ++ "()") = .ok () := by decide +kernel
  rw [Store.addDefinition]
  split
  · next hname =>
    simp only [htext, hexpression, Except.ok.injEq, hname, true_and]
    exact eq_comm
  · next hname =>
    refine iff_of_false (fun h => ?_) fun h => hname h.1
    cases h

/-- **What a model declares, and when it does.** -/
theorem ofModel_eq_ok_iff : ofModel layout middlewareDir m model = .ok store ↔
    Declarable m model ∧ store = declared layout middlewareDir m model := by
  have hlayers : ∀ base : Store, base = (addImports layout middlewareDir m model
      .empty).insertDefinition (definition model) →
      (if (nestedPattern m model).isSome then
        base.addImport (unlessPathImport layout middlewareDir) Call.unlessPathName
        else base) = named layout middlewareDir m model := by
    rintro base rfl
    rfl
  rw [ofModel]
  simp only [bind_eq_ok_iff, mapError_eq_ok_iff, addDefinition_listSchema_iff]
  constructor
  · rintro ⟨_, ⟨hname, rfl⟩, hroutes⟩
    rw [hlayers _ rfl, Store.foldlM_addRoute_eq_ok_iff, routes_named] at hroutes
    exact ⟨⟨hname, hroutes.1⟩, hroutes.2⟩
  · rintro ⟨h, rfl⟩
    refine ⟨_, ⟨h.listSchema, rfl⟩, ?_⟩
    rw [hlayers _ rfl, Store.foldlM_addRoute_eq_ok_iff, routes_named]
    exact ⟨h.routes, rfl⟩

/-! ### The stores of several models -/

theorem mem_foldl_insertRoute {route : Route} {added held : List Route}
    (h : route ∈ added.foldl (fun routes route => Store.insertRoute route routes) held) :
    route ∈ added ∨ route ∈ held := by
  induction added generalizing held with
  | nil => exact .inr h
  | cons r added ih =>
    rcases ih h with h | h
    · exact .inl (List.mem_cons_of_mem _ h)
    · rcases Store.mem_insertRoute h with rfl | h
      · exact .inl List.mem_cons_self
      · exact .inr h

theorem mem_routes_declared {route : Route}
    (h : route ∈ (declared layout middlewareDir m model).routes) : route ∈ routes m model :=
  (mem_foldl_insertRoute h).resolve_right List.not_mem_nil

theorem canonical_defined : ((addImports layout middlewareDir m model .empty).insertDefinition
    (definition model)).Canonical :=
  (((Store.Canonical.empty.addImports _ _).addImports _ _).addImports _ _).insertDefinition _

theorem canonical_named : (named layout middlewareDir m model).Canonical := by
  rw [named]
  split
  · exact canonical_defined.addImports _ _
  · exact canonical_defined

theorem canonical_declared (h : Declarable m model) :
    (declared layout middlewareDir m model).Canonical := by
  have hnamed : (named layout middlewareDir m model).Canonical := canonical_named
  exact { hnamed with
    routes := Store.pairwise_foldl_insertRoute .nil
    writable := fun route hroute => h.routes route (mem_routes_declared hroute) }

theorem canonical_of_mem_declared (h : ∀ model ∈ m.models, Declarable m model) :
    ∀ upper ∈ m.models.map (declared layout middlewareDir m), upper.Canonical :=
  List.forall_mem_map.2 fun model hmodel => canonical_declared (h model hmodel)

theorem addModels_eq_ok_iff {base : Store} {models : List Model} :
    addModels layout middlewareDir m base models = .ok store ↔
      (∀ model ∈ models, Declarable m model) ∧
        store = base.overlayAll (models.map (declared layout middlewareDir m)) := by
  induction models generalizing base with
  | nil =>
    rw [addModels, Except.ok.injEq, eq_comm]
    exact (and_iff_right fun _ h => absurd h List.not_mem_nil).symm
  | cons model models ih =>
    rw [addModels, List.forall_mem_cons, List.map_cons]
    simp only [bind_eq_ok_iff, mapError_eq_ok_iff, ofModel_eq_ok_iff, Store.merge_eq_ok_iff, ih]
    constructor
    · rintro ⟨_, ⟨hmodel, rfl⟩, _, ⟨-, rfl⟩, hmodels, rfl⟩
      exact ⟨⟨hmodel, hmodels⟩, rfl⟩
    · rintro ⟨⟨hmodel, hmodels⟩, rfl⟩
      exact ⟨_, ⟨hmodel, rfl⟩, _, ⟨(canonical_declared hmodel).writable, rfl⟩, hmodels, rfl⟩

/-- **What a module declares, and when it does.** -/
theorem ofModule_eq_ok_iff : ofModule layout middlewareDir m = .ok store ↔
    (∀ model ∈ m.models, Declarable m model) ∧
      store = Store.empty.overlayAll (m.models.map (declared layout middlewareDir m)) :=
  addModels_eq_ok_iff

/-- A merged store has nothing but the constants and routes of the stores that were merged, and
its statements are those of the first one if the others have none. -/
theorem mem_overlayAll (base : Store) {added : List Store}
    (hstatements : ∀ upper ∈ added, upper.statements = []) :
    (∀ d ∈ (base.overlayAll added).definitions,
        d ∈ base.definitions ∨ ∃ upper ∈ added, d ∈ upper.definitions) ∧
      (∀ route ∈ (base.overlayAll added).routes,
        route ∈ base.routes ∨ ∃ upper ∈ added, route ∈ upper.routes) ∧
      (base.overlayAll added).statements = base.statements := by
  rw [Store.overlayAll_eq]
  refine ⟨fun d hd => ?_, fun route hroute => ?_, ?_⟩
  · rcases Store.mem_putAll Definition.name hd with hd | hd
    · exact .inr (List.mem_flatMap.1 hd)
    · exact .inl hd
  · rcases mem_foldl_insertRoute hroute with hroute | hroute
    · exact .inr (List.mem_flatMap.1 hroute)
    · exact .inl hroute
  · have hnone : (Store.joined added).statements = [] :=
      List.flatMap_eq_nil_iff.2 hstatements
    rw [Store.overlay, hnone]
    rfl

/-! ### What is refused -/

theorem problemAll?_strings (texts : List String) :
    Value.problemAll? (texts.map .string) = none := by
  induction texts with
  | nil => rfl
  | cons text texts ih =>
    rw [List.map_cons, Value.problemAll?, Value.problem?]
    exact ih

theorem problem?_queryCheck (hname : Text.isIdentifier model.listSchema = true) (isList : Bool) :
    (queryCheck model isList).problem? = none := by
  have hcallee : Text.isIdentifierPath checkQuery = true := by decide +kernel
  simp only [Call.problem?, Call.toValue, queryCheck, Value.problem?, Value.problemAll?,
    Value.problemMembers?, Value.strings, problemAll?_strings, hcallee,
    Text.isIdentifierPath_of_isIdentifier hname, if_true]
  rfl

theorem problem?_bodyCheck (hname : Text.isIdentifier name = true) :
    (bodyCheck name).problem? = none := by
  have hcallee : Text.isIdentifierPath checkBody = true := by decide +kernel
  simp only [Call.problem?, Call.toValue, bodyCheck, Value.problem?, Value.problemAll?, hcallee,
    Text.isIdentifierPath_of_isIdentifier hname, if_true]

/-- A middleware that is skipped on some paths can be written if the pattern of these paths can. -/
theorem problem?_unlessPath_iff {pattern : String} {inner : Call} (hinner : inner.problem? = none)
    (hescaped : Regex.escapeSlashes pattern = pattern) :
    (Call.unlessPath pattern "" inner).problem? = none ↔ Regex.problem? pattern "" = none := by
  have hcallee : Text.isIdentifierPath Call.unlessPathName = true := by decide +kernel
  rw [Call.problem?] at hinner
  rw [Call.problem?, Call.unlessPath, Call.toValue, Value.problem?, if_pos hcallee,
    Value.ofPattern, hescaped, Value.problemAll?, Value.problem?, Value.problemAll?, hinner]
  cases Regex.problem? pattern "" <;> simp [Value.problemAll?]

/-- The middleware of the route that reads a collection can be written if none of the routes in its
pattern spans lines. -/
theorem problem?_listMiddleware_iff (hname : Text.isIdentifier model.listSchema = true) :
    (listMiddleware m model).problem? = none ↔ ∀ other ∈ m.models, Nested m model other →
      Regex.OnOneLine (m.basePath other).toList := by
  have hinner := problem?_queryCheck hname true
  rw [listMiddleware]
  cases hpattern : nestedPattern m model with
  | none =>
    refine iff_of_true hinner fun other hother hnested => ?_
    exact absurd hnested (nestedPattern_eq_none_iff.1 hpattern other hother)
  | some pattern =>
    obtain ⟨hescaped, hproblem⟩ := nestedPattern_problem?_iff hpattern
    exact (problem?_unlessPath_iff hinner hescaped).trans hproblem

theorem declarable_iff (hname : Text.isIdentifier model.name = true) : Declarable m model ↔
    model.PluralFits ∧ ∀ other ∈ m.models, Nested m model other →
      Regex.OnOneLine (m.basePath other).toList := by
  rw [← Model.isIdentifier_listSchema_iff hname]
  have hproblem : ∀ (method : Method) (matcher : String) (call : Call),
      (⟨method, matcher, [call], []⟩ : Route).problem? = none ↔ call.problem? = none := by
    intro method matcher call
    rw [Route.problem?, Route.callsProblem?, Route.callsProblem?, Route.extraProblem?]
    cases call.problem? <;> simp
  have hroutes : Text.isIdentifier model.listSchema = true →
      ((∀ route ∈ routes m model, route.problem? = none) ↔
        (listMiddleware m model).problem? = none) := by
    intro hschema
    simp only [routes, List.forall_mem_cons, hproblem, problem?_queryCheck hschema,
      problem?_bodyCheck (Model.isIdentifier_createValidator hname),
      problem?_bodyCheck (Model.isIdentifier_updateValidator hname), true_and]
    exact and_iff_left fun _ h => absurd h List.not_mem_nil
  constructor
  · rintro ⟨hschema, hall⟩
    exact ⟨hschema, (problem?_listMiddleware_iff hschema).1 ((hroutes hschema).1 hall)⟩
  · rintro ⟨hschema, hlines⟩
    exact ⟨hschema, (hroutes hschema).2 ((problem?_listMiddleware_iff hschema).2 hlines)⟩

end Declarations

namespace Schema

/-- What a module declares can be written. -/
structure Module.Expressible (m : Module) : Prop where
  /-- The words for several items fit into names. -/
  plurals : ∀ model ∈ m.models, model.PluralFits
  /-- Routes that lie below others do not span lines. -/
  nested : ∀ model ∈ m.models, ∀ other ∈ m.models, Declarations.Nested m model other →
    Regex.OnOneLine (m.basePath other).toList

instance (m : Module) : Decidable m.Expressible :=
  decidable_of_iff ((∀ model ∈ m.models, model.PluralFits) ∧
      ∀ model ∈ m.models, ∀ other ∈ m.models, Declarations.Nested m model other →
        Regex.OnOneLine (m.basePath other).toList)
    ⟨fun h => ⟨h.1, h.2⟩, fun h => ⟨h.plurals, h.nested⟩⟩

end Schema

namespace Declarations

open Schema

variable {layout : Layout} {middlewareDir : Path} {m : Module} {model : Model}
  {name : String} {binder : Store.Binder}

/-- **The declarations of an accepted module are refused exactly if a word for several items does
not fit into a name or a route that lies below another one spans lines.** -/
theorem forall_declarable_iff (h : m.Accepted) :
    (∀ model ∈ m.models, Declarable m model) ↔ m.Expressible := by
  have hmodel : ∀ model ∈ m.models, (Declarable m model ↔ model.PluralFits ∧
      ∀ other ∈ m.models, Nested m model other → Regex.OnOneLine (m.basePath other).toList) :=
    fun model hmem => declarable_iff (h.wellNamed model hmem).name
  rw [forall₂_congr hmodel]
  exact ⟨fun hall => ⟨fun model hmem => (hall model hmem).1, fun model hmem => (hall model hmem).2⟩,
    fun hall model hmem => ⟨hall.plurals model hmem, hall.nested model hmem⟩⟩

/-! ### What is bound -/

/-- The names that a model binds, each with its binder. -/
inductive Names (layout : Layout) (middlewareDir : Path) (m : Module) (model : Model) :
    String → Store.Binder → Prop
  /-- The registration and the middlewares. -/
  | http {name : String} : name ∈ [Store.registrationName, checkBody, checkQuery] →
      Names layout middlewareDir m model name (.imported httpSource)
  /-- The function that makes query schemas. -/
  | findParams : Names layout middlewareDir m model findParams (.imported validatorsSource)
  /-- The checks of bodies. -/
  | validator {name : String} : name ∈ [model.createValidator, model.updateValidator] →
      Names layout middlewareDir m model name
        (.imported (validatorsImport layout middlewareDir m model))
  /-- The wrapper that skips a middleware, if there is a collection to skip it for. -/
  | unlessPath : (nestedPattern m model).isSome = true → Names layout middlewareDir m model
      Call.unlessPathName (.imported (unlessPathImport layout middlewareDir))
  /-- The schema constant. -/
  | listSchema : Names layout middlewareDir m model model.listSchema .defined

theorem boundBy_addImports_of_isIdentifier {store : Store} (h : store.Canonical) (source : String)
    {names : List String} (hnames : ∀ s ∈ names, Text.isIdentifier s = true) :
    (store.addImports source names).BoundBy name binder ↔
      store.BoundBy name binder ∨ binder = .imported source ∧ name ∈ names :=
  Store.boundBy_addImports h.imports fun s hs => Text.isWord_of_isIdentifier (hnames s hs)

/-- What binds a name in the imports of a model, but for the wrapper. -/
theorem boundBy_addImports_iff (hname : Text.isIdentifier model.name = true) :
    (addImports layout middlewareDir m model .empty).BoundBy name binder ↔
      binder = .imported httpSource ∧ name ∈ [Store.registrationName, checkBody, checkQuery] ∨
      binder = .imported validatorsSource ∧ name ∈ [findParams] ∨
      binder = .imported (validatorsImport layout middlewareDir m model) ∧
        name ∈ [model.createValidator, model.updateValidator] := by
  have hhttp := Store.Canonical.empty.addImports httpSource
    [Store.registrationName, checkBody, checkQuery]
  have hfind := hhttp.addImports validatorsSource [findParams]
  have hchecks : ∀ s ∈ [model.createValidator, model.updateValidator],
      Text.isIdentifier s = true := by
    intro s hs
    rcases List.mem_pair.1 hs with rfl | rfl
    · exact Model.isIdentifier_createValidator hname
    · exact Model.isIdentifier_updateValidator hname
  rw [addImports, Store.addImport, boundBy_addImports_of_isIdentifier hfind _ hchecks,
    boundBy_addImports_of_isIdentifier hhttp _ (by decide +kernel),
    boundBy_addImports_of_isIdentifier .empty _ (by decide +kernel),
    or_iff_right Store.boundBy_empty, or_assoc]

theorem boundBy_named_iff :
    (named layout middlewareDir m model).BoundBy name binder ↔
      (addImports layout middlewareDir m model .empty).BoundBy name binder ∨
      binder = .defined ∧ name = model.listSchema ∨
      (nestedPattern m model).isSome = true ∧
        binder = .imported (unlessPathImport layout middlewareDir) ∧
        name = Call.unlessPathName := by
  have himports : (addImports layout middlewareDir m model .empty).Canonical :=
    ((Store.Canonical.empty.addImports _ _).addImports _ _).addImports _ _
  rw [named]
  split
  · next hnested =>
    rw [Store.addImport, boundBy_addImports_of_isIdentifier (himports.insertDefinition _) _
      (by decide +kernel), Store.boundBy_insertDefinition, List.mem_singleton, or_assoc,
      and_iff_right hnested]
    rfl
  · next hnested =>
    rw [Store.boundBy_insertDefinition, ← or_assoc]
    exact (or_iff_left fun h => hnested h.1).symm

/-- **What binds a name in the declarations of a model.** -/
theorem boundBy_declared (hname : Text.isIdentifier model.name = true) :
    (declared layout middlewareDir m model).BoundBy name binder ↔
      Names layout middlewareDir m model name binder := by
  have hnamed : (declared layout middlewareDir m model).BoundBy name binder ↔
      (named layout middlewareDir m model).BoundBy name binder := by
    cases binder <;> rfl
  rw [hnamed, boundBy_named_iff, boundBy_addImports_iff hname]
  constructor
  · rintro ((⟨rfl, h⟩ | ⟨rfl, h⟩ | ⟨rfl, h⟩) | ⟨rfl, rfl⟩ | ⟨h, rfl, rfl⟩)
    · exact .http h
    · rw [List.mem_singleton.1 h]
      exact .findParams
    · exact .validator h
    · exact .listSchema
    · exact .unlessPath h
  · rintro (h | - | h | h | -)
    · exact .inl (.inl ⟨rfl, h⟩)
    · exact .inl (.inr (.inl ⟨rfl, List.mem_singleton.2 rfl⟩))
    · exact .inl (.inr (.inr ⟨rfl, h⟩))
    · exact .inr (.inr ⟨h, rfl, rfl⟩)
    · exact .inr (.inl ⟨rfl, rfl⟩)

end Declarations

end ModuleScaffold
