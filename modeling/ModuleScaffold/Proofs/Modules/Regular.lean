import ModuleScaffold.Proofs.Modules.Inside
import ModuleScaffold.Proofs.Modules.Shared
import ModuleScaffold.Proofs.Paths.Pointed
import ModuleScaffold.Proofs.Reading.File

/-!
# Declarations of modules that are read back

What a module declares is read back from the file that it is written in: the schema constants are
calls without arguments, the routes refer to nothing but these constants and the checks of bodies,
and the imports name identifiers. Only the paths of imports can get in the way, since a source is
read with the escapes that it was written with.

A store with declarations on top that are read back is itself read back, so the same goes for all
that is merged into a file.

Main statements:

* `ModuleScaffold.Store.IsRegular.overlay` – **what is read back by itself is read back when it is
  merged**;
* `ModuleScaffold.Declarations.isRegular_declared` – **what a model declares is read back, if nothing
  in the paths of its imports is escaped**;
* `ModuleScaffold.Declarations.plainPaths_of_words` – when nothing in these paths is escaped;
* `ModuleScaffold.isRegular_mergeModules` – **modules that are merged into a file that is read back
  make a file that is read back**.
-/

namespace ModuleScaffold

open Source

/-! ### Merged stores -/

namespace Store

variable {a b : Store} {imports added : List Import}

/-- Names that are read back are collapsed. -/
theorem collapsed_of_isRegular (h : ∀ i ∈ imports, i.IsRegular) : Collapsed imports := by
  intro i hi name hname
  obtain ⟨s, hs, rfl⟩ := (h i hi).names name hname
  exact ⟨Import.Specifier.text_ne_empty hs, Import.Specifier.collapse_text hs⟩

theorem isRegular_foldl_withImport (h : ImportsAscend imports)
    (himports : ∀ i ∈ imports, i.IsRegular) (hadded : ∀ i ∈ added, i.IsRegular) :
    ∀ i ∈ added.foldl withImport imports, i.IsRegular := by
  have hascend : ImportsAscend (added.foldl withImport imports) := WellFormed.foldl_withImport h
  -- the source of a merged import, and each of its names, is found in one of the two lists
  intro i hi
  constructor
  · have hfound : (lookup Import.source i.source (added.foldl withImport imports)).isSome = true :=
      isSome_lookup_iff.2 ⟨i, hi, rfl⟩
    rw [isSome_lookup_foldl h, Bool.or_eq_true, isSome_lookup_iff, isSome_lookup_iff] at hfound
    rcases hfound with ⟨j, hj, hsource⟩ | ⟨j, hj, hsource⟩
    · exact hsource ▸ (himports j hj).source
    · exact hsource ▸ (hadded j hj).source
  · intro name hname
    have hfound := (mem_namesFrom hascend.nodup_sources).2 ⟨i, hi, rfl, hname⟩
    rw [mem_namesFrom_foldl h (collapsed_of_isRegular hadded), mem_namesFrom h.nodup_sources]
      at hfound
    rcases hfound with ⟨j, hj, -, hmem⟩ | ⟨j, hj, -, hmem⟩
    · exact (himports j hj).names name hmem
    · exact (hadded j hj).names name hmem

theorem IsRegular.empty : IsRegular .empty where
  imports _ h := absurd h List.not_mem_nil
  definitions _ h := absurd h List.not_mem_nil
  routes _ h := absurd h List.not_mem_nil
  statements _ h := absurd h List.not_mem_nil
  settings _ h := absurd h List.not_mem_nil

/-- **What is read back by itself is read back when it is merged.** -/
theorem IsRegular.overlay (ha : a.IsRegular) (hascend : ImportsAscend a.imports)
    (hb : b.IsRegular) (hcanonical : b.Canonical) : (a.overlay b).IsRegular where
  imports := isRegular_foldl_withImport hascend ha.imports hb.imports
  definitions d hd := (mem_putAll Definition.name hd).elim (hb.definitions d) (ha.definitions d)
  routes route hroute :=
    (Declarations.mem_foldl_insertRoute hroute).elim (hb.routes route) (ha.routes route)
  statements text htext := by
    rw [Store.overlay, foldl_withStatement_eq hcanonical.trimmed] at htext
    exact (mem_foldl_withNew.1 htext).elim (ha.statements text) (hb.statements text)
  settings setting hsetting := by
    rw [Store.overlay, hcanonical.map_heldSetting] at hsetting
    exact (mem_putAll Setting.key hsetting).elim (hb.settings setting) (ha.settings setting)

theorem IsRegular.overlayAll {base : Store} {added : List Store} (hbase : base.IsRegular)
    (hwell : base.WellFormed) (hregular : ∀ upper ∈ added, upper.IsRegular)
    (hcanonical : ∀ upper ∈ added, upper.Canonical) : (base.overlayAll added).IsRegular := by
  induction added generalizing base with
  | nil => exact hbase
  | cons upper added ih =>
    obtain ⟨hupper, hregular⟩ := List.forall_mem_cons.1 hregular
    obtain ⟨hform, hcanonical⟩ := List.forall_mem_cons.1 hcanonical
    exact ih (hbase.overlay hwell.imports hupper hform) (hwell.overlay upper) hregular hcanonical

/-- The order of the constants and statements does not matter. -/
theorem IsRegular.reordered (h : a.IsRegular) (hb : a.Reordered b) : b.IsRegular where
  imports := hb.imports ▸ h.imports
  definitions d hd := h.definitions d (hb.definitions.mem_iff.2 hd)
  routes := hb.routes ▸ h.routes
  statements text htext := h.statements text (hb.statements.mem_iff.2 htext)
  settings := hb.settings ▸ h.settings

/-- A name that is imported is read back if it is an identifier and nothing in the path of its
source is escaped. -/
theorem IsRegular.addImports (h : a.IsRegular) (hascend : ImportsAscend a.imports) {source : String}
    {names : List String} (hsource : Text.IsPlain source)
    (hnames : ∀ name ∈ names, Text.isIdentifier name = true) :
    (a.addImports source names).IsRegular := by
  have hadded : (⟨source, names⟩ : Import).IsRegular := by
    refine ⟨hsource, fun name hname => ⟨.named false name.toList none, fun w hw => ?_, ?_⟩⟩
    · obtain rfl := List.mem_singleton.1 hw
      exact hnames name hname
    · exact String.ofList_toList.symm
  exact { h with
    imports := isRegular_foldl_withImport hascend h.imports (List.forall_mem_singleton.2 hadded) }

theorem IsRegular.insertDefinition (h : a.IsRegular) {d : Definition} (hd : d.IsRegular) :
    (a.insertDefinition d).IsRegular :=
  { h with definitions := fun d' hd' => (mem_upsert hd').elim (· ▸ hd) (h.definitions d') }

end Store

namespace Declarations

open Schema

variable {layout : Layout} {middlewareDir : Path} {m : Module} {model : Model}

/-! ### The paths of the imports -/

/-- Nothing in the paths of the imports of a model is escaped. -/
structure PlainPaths (layout : Layout) (middlewareDir : Path) (m : Module) (model : Model) :
    Prop where
  /-- Nothing in the path of the checks is. -/
  validators : Text.IsPlain (validatorsImport layout middlewareDir m model)
  /-- Nothing in the path of the wrapper is, if it is imported. -/
  unlessPath : (nestedPattern m model).isSome = true →
    Text.IsPlain (unlessPathImport layout middlewareDir)

theorem isPlain_append {a b : String} (ha : Text.IsPlain a) (hb : Text.IsPlain b) :
    Text.IsPlain (a ++ b) := by
  intro c hc
  rw [String.toList_append] at hc
  exact (List.mem_append.1 hc).elim (ha c) (hb c)

theorem isPlain_join {base : Path} {tail : String} (hbase : Text.IsPlain base.text)
    (htail : Text.IsPlain tail) : Text.IsPlain (base.join tail).text := by
  intro c hc
  rcases Path.mem_of_mem_join hc with rfl | hc | hc
  · rfl
  · exact hbase c hc
  · exact htail c hc

/-- Nothing in a specifier is escaped if nothing in its target is. -/
theorem isPlain_importPath {origin target : Path} (h : Text.IsPlain target.text) :
    Text.IsPlain (Path.importPath origin target) := by
  have hmarks : ∀ c ∈ ['.', '/'], Text.escaped c = [c] :=
    List.forall_mem_cons.2 ⟨rfl, List.forall_mem_singleton.2 rfl⟩
  exact fun c hc => (Path.mem_of_mem_importPath hc).elim (hmarks c) (h c)

/-- Nothing in the route of a model is escaped if nothing in its words is. -/
theorem isPlain_basePath (h : ∀ word ∈ m.routeWords model, Text.IsPlain word) :
    Text.IsPlain (m.basePath model) := by
  have hadmin : Text.IsPlain "/admin/" := by decide +kernel
  have hslash : Text.IsPlain "/" := by decide +kernel
  rw [Module.basePath]
  rw [Module.routeWords] at h
  cases hkind : model.isParent with
  | true =>
    rw [hkind, if_pos rfl] at h
    exact isPlain_append hadmin (h _ List.mem_cons_self)
  | false =>
    rw [hkind, if_neg Bool.false_ne_true] at h
    rw [if_neg Bool.false_ne_true]
    cases hparent : model.parent with
    | some parent =>
      rw [hparent] at h
      obtain ⟨hstarts, hplural⟩ := List.forall_mem_cons.1 h
      have hroute : Text.IsPlain parent.route := fun c hc =>
        hstarts c (Text.mem_of_mem_trimMatches hc)
      exact isPlain_append (isPlain_append (isPlain_append hadmin hroute) hslash)
        (hplural _ List.mem_cons_self)
    | none =>
      rw [hparent] at h
      obtain ⟨hmodule, hplural⟩ := List.forall_mem_cons.1 h
      exact isPlain_append (isPlain_append (isPlain_append hadmin hmodule) hslash)
        (hplural _ List.mem_cons_self)

/-- **Nothing in the paths of the imports of a model is escaped** if nothing in the source directory
and in the words of its route is. -/
theorem plainPaths_of_words (hsource : Text.IsPlain layout.sourceDir.text)
    (h : ∀ word ∈ m.routeWords model, Text.IsPlain word) :
    PlainPaths layout middlewareDir m model := by
  have hapi : Text.IsPlain layout.apiDir.text := isPlain_join hsource (by decide +kernel)
  have hroute : Text.IsPlain (Layout.relativeRoute (m.basePath model)) := by
    intro c hc
    rw [Layout.relativeRoute, String.toList_ofList] at hc
    exact isPlain_basePath h c ((List.dropWhile_sublist _).mem hc)
  exact ⟨isPlain_importPath (isPlain_join (isPlain_join hapi hroute) (by decide +kernel)),
    fun _ => isPlain_importPath (isPlain_join hapi (by decide +kernel))⟩

/-! ### The constant of a model -/

/-- A name that begins with a capital letter is no reserved word. -/
theorem notMem_reservedWords {name : String} {c : Char} (hhead : name.toList.head? = some c)
    (hc : c ∈ ['G', 'P']) : name ∉ reservedWords := by
  have hwords : ∀ w ∈ reservedWords, w.toList.head? ∉ ['G', 'P'].map some := by decide
  exact fun hmem => hwords name hmem (hhead ▸ List.mem_map_of_mem hc)

/-- An identifier that begins with a capital letter is read as a reference. -/
theorem isReadable_name {name : String} {c : Char} (hname : Text.isIdentifier name = true)
    (hhead : name.toList.head? = some c) (hc : c ∈ ['G', 'P']) : isReadable false name = true := by
  refine isReadable_of_root (Text.isIdentifierPath_of_isIdentifier hname) ?_ false
  rw [Text.pathRoot_of_isIdentifier hname]
  exact notMem_reservedWords hhead hc

theorem head?_listSchema (model : Model) : model.listSchema.toList.head? = some 'G' := by
  rw [Model.listSchema, String.toList_append, String.toList_append]
  rfl

theorem isSchemaName_listSchema (model : Model) : Store.isSchemaName model.listSchema = true := by
  rw [Store.isSchemaName, Model.listSchema, String.toList_append]
  exact List.isSuffixOf_iff_suffix.2 (List.suffix_append _ _)

/-- The schema constant of a model is read back. -/
theorem isRegular_definition (h : Text.isIdentifier model.listSchema = true) :
    (definition model).IsRegular := by
  have hcall : (Value.call findParams []).IsRegular :=
    Value.isRegular_of_isReadable (by decide +kernel) (by decide +kernel)
  have htext : (findParams ++ "()").toList = Value.render (.call findParams []) := by
    decide +kernel
  have hschema := isSchemaName_listSchema model
  exact ⟨Definition.comesBack_call (isToken_of_identifier h) (ne_enum_of_isSchemaName hschema) hcall
    htext, hschema⟩

/-! ### Routes -/

/-- The name of the schema constant is read as a reference. -/
theorem isReadable_listSchema (h : Text.isIdentifier model.listSchema = true) :
    isReadable false model.listSchema = true :=
  isReadable_name h (head?_listSchema model) (by decide)

theorem isReadable_strings (texts : List String) : (Value.strings texts).isReadable = true := by
  rw [Value.strings, Value.isReadable, Value.areReadable_iff]
  rintro v hv
  obtain ⟨text, -, rfl⟩ := List.mem_map.1 hv
  rw [Value.isReadable]
  all_goals simp

theorem isReadable_queryCheck (h : Text.isIdentifier model.listSchema = true) (isList : Bool) :
    (queryCheck model isList).toValue.isReadable = true := by
  have hcallee : isReadable true checkQuery = true := by decide +kernel
  simp only [queryCheck, Call.toValue, Value.isReadable, Value.areReadable,
    Value.areReadableMembers, isReadable_strings, isReadable_listSchema h, hcallee, Bool.or_true,
    Bool.and_self]

theorem isReadable_bodyCheck {name : String} (h : isReadable false name = true) :
    (bodyCheck name).toValue.isReadable = true := by
  have hcallee : isReadable true checkBody = true := by decide +kernel
  simp only [bodyCheck, Call.toValue, Value.isReadable, Value.areReadable, h, hcallee,
    Bool.and_self]

theorem isReadable_listMiddleware (h : Text.isIdentifier model.listSchema = true) :
    (listMiddleware m model).toValue.isReadable = true := by
  have hcallee : isReadable true Call.unlessPathName = true := by decide +kernel
  have hquery := isReadable_queryCheck h true
  rw [listMiddleware]
  split
  · simp only [Call.unlessPath, Call.toValue, Value.isReadable, Value.areReadable, Value.ofPattern,
      hcallee, Bool.true_and, Bool.and_true]
    exact hquery
  · exact hquery

/-- A route with one middleware that can be read is read back. -/
theorem isRegular_route {method : Method} {matcher : String} {call : Call}
    (hproblem : (⟨method, matcher, [call], []⟩ : Route).problem? = none)
    (hcall : call.toValue.isReadable = true) :
    (⟨method, matcher, [call], []⟩ : Route).IsRegular where
  problem := hproblem
  readable := by
    simp only [Route.members, List.map_cons, List.map_nil, Value.isReadable, Value.areReadable,
      Value.areReadableMembers, hcall, Bool.or_true, Bool.and_self]
  keys _ h := absurd h List.not_mem_nil
  pairs _ h := absurd h List.not_mem_nil

/-- The routes of a model are read back. -/
theorem isRegular_routes (hname : Text.isIdentifier model.name = true) (h : Declarable m model) :
    ∀ route ∈ routes m model, route.IsRegular := by
  have hcreate : isReadable false model.createValidator = true :=
    isReadable_name (Model.isIdentifier_createValidator hname)
      (by rw [Model.toList_createValidator]; rfl) (show 'P' ∈ ['G', 'P'] by decide)
  have hupdate : isReadable false model.updateValidator = true :=
    isReadable_name (Model.isIdentifier_updateValidator hname)
      (by rw [Model.toList_updateValidator]; rfl) (show 'P' ∈ ['G', 'P'] by decide)
  have hproblem := h.routes
  -- the four routes differ in what their one middleware refers to
  simp only [routes, List.forall_mem_cons] at hproblem ⊢
  obtain ⟨hlist, hpost, hget, hchange, -⟩ := hproblem
  exact ⟨isRegular_route hlist (isReadable_listMiddleware h.listSchema),
    isRegular_route hpost (isReadable_bodyCheck hcreate),
    isRegular_route hget (isReadable_queryCheck h.listSchema false),
    isRegular_route hchange (isReadable_bodyCheck hupdate), fun _ h => absurd h List.not_mem_nil⟩

/-! ### The store of a model -/

theorem isRegular_addImports (hname : Text.isIdentifier model.name = true)
    (hpaths : PlainPaths layout middlewareDir m model) :
    (addImports layout middlewareDir m model .empty).IsRegular := by
  have hhttp : Text.IsPlain httpSource := by decide +kernel
  have hfind : Text.IsPlain validatorsSource := by decide +kernel
  have hchecks : ∀ name ∈ [model.createValidator, model.updateValidator],
      Text.isIdentifier name = true :=
    List.forall_mem_cons.2 ⟨Model.isIdentifier_createValidator hname,
      List.forall_mem_singleton.2 (Model.isIdentifier_updateValidator hname)⟩
  have hfirst := Store.Canonical.empty.addImports httpSource
    [Store.registrationName, checkBody, checkQuery]
  have hsecond := hfirst.addImports validatorsSource [findParams]
  exact ((Store.IsRegular.empty.addImports Store.Canonical.empty.imports hhttp
    (by decide +kernel)).addImports hfirst.imports hfind (by decide +kernel)).addImports
      hsecond.imports hpaths.validators hchecks

theorem isRegular_named (hname : Text.isIdentifier model.name = true) (h : Declarable m model)
    (hpaths : PlainPaths layout middlewareDir m model) :
    (named layout middlewareDir m model).IsRegular := by
  have hbase := (isRegular_addImports hname hpaths).insertDefinition
    (isRegular_definition h.listSchema)
  rw [named]
  split
  · next hnested =>
    exact hbase.addImports canonical_defined.imports (hpaths.unlessPath hnested) (by decide +kernel)
  · exact hbase

/-- **What a model declares is read back, if nothing in the paths of its imports is escaped.** -/
theorem isRegular_declared (hname : Text.isIdentifier model.name = true) (h : Declarable m model)
    (hpaths : PlainPaths layout middlewareDir m model) :
    (declared layout middlewareDir m model).IsRegular :=
  { isRegular_named hname h hpaths with
    routes := fun route hroute => isRegular_routes hname h route (mem_routes_declared hroute) }

/-- What a module declares is read back. -/
theorem isRegular_allDeclared (haccepted : m.Accepted) (h : ∀ model ∈ m.models, Declarable m model)
    (hpaths : ∀ model ∈ m.models, PlainPaths layout middlewareDir m model) :
    (allDeclared layout middlewareDir m).IsRegular := by
  refine Store.IsRegular.empty.overlayAll Store.Canonical.empty.toWellFormed
    (List.forall_mem_map.2 fun model hmodel => ?_) (canonical_of_mem_declared h)
  exact isRegular_declared (haccepted.wellNamed model hmodel).name (h model hmodel)
    (hpaths model hmodel)

end Declarations

open Declarations

variable {project : Project} {base store : Store} {modules : List Schema.Module}

/-- Nothing in the paths of the imports of modules is escaped. -/
def PlainImports (project : Project) (modules : List Schema.Module) : Prop :=
  ∀ m ∈ modules, ∀ model ∈ m.models, PlainPaths project.layout project.middlewareDir m model

/-- Nothing in the paths of the imports of modules is escaped if nothing in the source directory and
in the words of their routes is. -/
theorem plainImports_of_words (hsource : Text.IsPlain project.layout.sourceDir.text)
    (h : ∀ m ∈ modules, ∀ model ∈ m.models, ∀ word ∈ m.routeWords model, Text.IsPlain word) :
    PlainImports project modules :=
  fun m hm model hmodel => plainPaths_of_words hsource (h m hm model hmodel)

/-- **Modules that are merged into a file that is read back make a file that is read back.** -/
theorem isRegular_mergeModules (haccepted : ∀ m ∈ modules, m.Accepted)
    (hpaths : PlainImports project modules) (hbase : base.IsRegular) (hwell : base.WellFormed)
    (h : mergeModules project base modules = .ok store) : store.IsRegular := by
  obtain ⟨hdeclarable, rfl⟩ := mergeModules_allDeclared_iff.1 h
  exact hbase.overlayAll hwell
    (List.forall_mem_map.2 fun m hm =>
      isRegular_allDeclared (haccepted m hm) (hdeclarable m hm) (hpaths m hm))
    (List.forall_mem_map.2 fun m hm => canonical_allDeclared (hdeclarable m hm))

/-- Modules that are merged into a canonical store make a canonical store. -/
theorem canonical_mergeModules (hbase : base.Canonical)
    (h : mergeModules project base modules = .ok store) : store.Canonical := by
  obtain ⟨hdeclarable, rfl⟩ := mergeModules_allDeclared_iff.1 h
  exact hbase.overlayAll
    (List.forall_mem_map.2 fun m hm => canonical_allDeclared (hdeclarable m hm))

/-- The statements of a file with modules are those that were there before. -/
theorem statements_mergeModules (h : mergeModules project base modules = .ok store) :
    store.statements = base.statements := by
  have hnone : ∀ m : Schema.Module,
      (allDeclared project.layout project.middlewareDir m).statements = [] := fun m =>
    (mem_overlayAll .empty (List.forall_mem_map.2 fun _ _ => statements_declared)).2.2
  obtain ⟨-, rfl⟩ := mergeModules_allDeclared_iff.1 h
  exact (mem_overlayAll base (List.forall_mem_map.2 fun m _ => hnone m)).2.2

end ModuleScaffold
